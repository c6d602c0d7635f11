import OnlineLearning.Proofs.AlikeStack
import OnlineLearning.Proofs.Built
import OnlineLearning.Proofs.Groups
import OnlineLearning.Proofs.Parity
import OnlineLearning.Proofs.WorkspaceCalls

/-!
# Two problems in one table

The primary policy and the decoder of a grounded chain share an optimizer. To say who gets to which
group, the optimizer is watched: `Watched` is the optimizer with a log of the calls that reach it,
and `Watched.groundedLearner` a grounded node whose two lines stand on it.

* `Optimizer.KeepsTo`: what a call reads and writes lies in a set of groups;
* `Optimizer.keepsTo_of_alike`: this is so for calls that act alike on the groups of a problem;
* `Workspace.problems_apart`: in every run of a grounded workspace on batches of hashed features,
  the calls of the decoder keep to the odd groups and those of the primary policy to the even ones.
-/

namespace OnlineLearning

variable {R W : Type} [Scalar R] [Number W] [Widening R W] {mask : UInt64}

/-! ## Reads and writes of a call -/

namespace Optimizer

/-- A call writes the groups in `S` only, and reads these only: on an optimizer that has the same
groups there, its outcome, its example and these groups come out the same. -/
structure KeepsTo (S : UInt64 → Prop) (call : NodeM R W (Optimizer R W) (Example R) Unit)
    (frame : Frame R W (Optimizer R W) (Example R)) : Prop where
  writes : ∀ i, ¬ S (i &&& frame.node.weights.mask) →
    (call.runOn frame).2.node.channels i = frame.node.channels i
  reads : ∀ o, AgreeOn S frame.node o →
    (call.runOn { frame with node := o }).1 = (call.runOn frame).1 ∧
      (call.runOn { frame with node := o }).2.input = (call.runOn frame).2.input ∧
      (call.runOn { frame with node := o }).2.context = (call.runOn frame).2.context ∧
      AgreeOn S (call.runOn frame).2.node (call.runOn { frame with node := o }).2.node

omit [Number W] [Widening R W] in
theorem Touched.channels {S : UInt64 → Prop} {o o' : Optimizer R W} (h : Touched S o o')
    {i : UInt64} (hi : ¬ S (i &&& o.weights.mask)) : o'.channels i = o.channels i := by
  obtain ⟨t, _, _, _, rfl, ht⟩ := h
  exact congrArg Vector.toList (ht.group i hi)

/-- Two calls that act alike on the groups of a problem, the first of which changes no others. -/
theorem keepsTo_of_alike {r : Region mask} {call : NodeM R W (Optimizer R W) (Example R) Unit}
    (halike : NodeM.Alike (Agree (Twins r) .eq (Example.Marked .same r))
      (Agree (Twins r) .eq (Example.Marked .same r)) call call)
    {frame : Frame R W (Optimizer R W) (Example R)}
    (htouched : Touched r.group frame.node (call.runOn frame).2.node)
    (hmask : frame.node.weights.mask = mask) (hec : r.Holds frame.input) :
    KeepsTo r.group call frame := by
  refine ⟨fun i hi => htouched.channels hi, fun o ho => ?_⟩
  obtain ⟨hout, hleft⟩ := halike frame { frame with node := o } ⟨⟨hmask, ho⟩, rfl, .refl hec⟩
  exact ⟨hout.symm, hleft.input.eq, hleft.context.symm, hleft.node.agree⟩

end Optimizer

/-! ## The watched optimizer -/

inductive Problem where
  | primary
  | decoder
  deriving DecidableEq, Repr

/-- A call that reached the optimizer: for which problem, and from which frame. -/
structure Visit (R W : Type) where
  problem : Problem
  call : NodeM R W (Optimizer R W) (Example R) Unit
  frame : Frame R W (Optimizer R W) (Example R)

/-- An optimizer with the calls that reached it, in order. -/
structure Watched (R W : Type) where
  optimizer : Optimizer R W
  visits : List (Visit R W)

namespace Watched

/-- Makes a call and writes it down. -/
def watch (problem : Problem) (call : NodeM R W (Optimizer R W) (Example R) Unit) :
    NodeM R W (Watched R W) (Example R) Unit :=
  NodeM.ofRun fun frame =>
    let inner : Frame R W (Optimizer R W) (Example R) :=
      ⟨frame.node.optimizer, frame.context, frame.input⟩
    let (outcome, left) := call.runOn inner
    (outcome,
      ⟨⟨left.node, frame.node.visits ++ [⟨problem, call, inner⟩]⟩, left.context, left.input⟩)

/-- The optimizer as a learner that writes down its calls. -/
def learner (problem : Problem) : LineLearner R W (Watched R W) where
  predict := watch problem Optimizer.predict
  learn := watch problem Optimizer.learn
  update := watch problem Optimizer.update
  sensitivity w := w.optimizer.sensitivity

/-- The scorers of a line on the watched optimizer. -/
def lineLearner (problem : Problem) (l : Line) : LineLearner R W (Watched R W) :=
  l.links.foldr Scorer.learner (learner problem)

/-- A grounded node on a bandit node, both on the watched optimizer. -/
def groundedLearner (s : GroundedSettings R) (offset : UInt64) (decoder primary : Line) :
    Learner R W (GroundedState R W × (Example R × Watched R W)) (Batch R) :=
  Grounded.learner s offset (Bandit.learner (lineLearner .primary primary))
    ((lineLearner .decoder decoder).onNode Prod.snd fun w s => (s.1, w))

end Watched

/-- Whether a visited group belongs to the problem. -/
def Problem.group : Problem → UInt64 → Prop
  | primary => IsEven
  | decoder => IsOdd

/-- The features of a call get to groups of its problem, and the call keeps to these groups. -/
structure Visit.Apart (v : Visit R W) : Prop where
  features : ∀ f ∈ v.frame.input.visits v.frame.context.interactions,
    v.problem.group (f.index &&& v.frame.node.weights.mask)
  keepsTo : Optimizer.KeepsTo v.problem.group v.call v.frame

namespace Watched

/-- A watched optimizer over a table of mask `mask` is the optimizer `o`, and the calls so far kept
to their problems. -/
structure Shows (mask : UInt64) (w : Watched R W) (o : Optimizer R W) : Prop where
  eq : o = w.optimizer
  mask_eq : o.weights.mask = mask
  apart : ∀ v ∈ w.visits, v.Apart

/-- Watching a call that keeps to its problem. -/
theorem watch_alike {problem : Problem} {r : Region mask} (hgroup : r.group = problem.group)
    {call : NodeM R W (Optimizer R W) (Example R) Unit} {p : R → Prop} {M : Marks}
    (halike : NodeM.Alike (Agree (Optimizer.Twins r) .eq (Example.Marked .same r))
      (Agree (Optimizer.Twins r) .eq (Example.Marked .same r)) call call)
    (hkeeps : ∀ o, NodeM.Alike
      (fun f f' => Agree (Same (Optimizer.Kept r o)) .eq (Example.Marked M r) f f' ∧
        p f.input.weight)
      (Agree (Same (Optimizer.Kept r o)) .eq (Example.Marked M r)) call call) :
    NodeM.Alike (fun f f' => Agree (Shows mask) .eq (Example.Marked M r) f f' ∧ p f.input.weight)
      (Agree (Shows mask) .eq (Example.Marked M r)) (watch problem call) call := by
  rintro ⟨w, context, input⟩ ⟨_, context', input'⟩ ⟨⟨⟨heq, hmask, hapart⟩, hcontext, hinput⟩, hp⟩
  dsimp only at heq hcontext hinput hmask hp
  subst heq
  obtain rfl : context = context' := hcontext
  have hstart : Optimizer.Kept r w.optimizer w.optimizer := ⟨hmask, .refl _⟩
  obtain ⟨hout, hleft⟩ := hkeeps w.optimizer ⟨w.optimizer, context, input⟩
    ⟨w.optimizer, context, input'⟩ ⟨⟨⟨rfl, hstart⟩, rfl, hinput⟩, hp⟩
  have hshown := hleft.node.holds.mask
  rw [← hleft.node.eq] at hshown
  refine ⟨hout, ⟨hleft.node.eq, hshown, ?_⟩, hleft.context, hleft.input⟩
  intro v hv
  rcases List.mem_append.mp hv with hv | hv
  · exact hapart v hv
  · obtain rfl := List.mem_singleton.mp hv
    refine ⟨?_, ?_⟩
    · rw [← hgroup]
      exact Optimizer.visits_of_holds hmask hinput.holds _
    · rw [← hgroup]
      exact Optimizer.keepsTo_of_alike halike hleft.node.holds.touched hmask hinput.holds

/-- The watched optimizer shows the optimizer, on the examples of a problem. -/
theorem learner_alike (problem : Problem) {r : Region mask} (hgroup : r.group = problem.group)
    {p : R → Prop} :
    (learner problem : LineLearner R W _).Alike (Shows mask) .eq r p Optimizer.learner := by
  have hkeeps (o : Optimizer R W) := Optimizer.learner_kept (r := r) (p := p) o
  have htwins := Optimizer.learner_alike (C := .eq) (r := r) (R := R) (W := W) (p := p)
  refine ⟨fun M => ?_, watch_alike hgroup Optimizer.learn_alike fun o => (hkeeps o).learn, ?_⟩
  · exact (watch_alike hgroup (htwins.predict .same) (p := fun _ => True) fun o =>
      ((hkeeps o).predict M).weaken (fun _ _ h => h.1) fun _ _ h => h).weaken
        (fun _ _ h => ⟨h, trivial⟩) fun _ _ h => h
  · rintro M w _ c c' ec ec' ⟨rfl, -, -⟩ hc ⟨⟨mark, -, rfl⟩, -⟩
    rw [show c' = c from hc.symm]
    rfl

/-- A watched grounded node shows the tower of the workspace. -/
theorem groundedLearner_alike (hmask : IsOdd mask) (s : GroundedSettings R) {decoder primary : Line}
    (hdecoder : decoder.links ≠ []) (hprimary : primary.links ≠ []) :
    (groundedLearner s 1 decoder primary : Learner R W _ _).Alike
      (Grounded.Related (Bandit.Below (Shows mask)) .eq) .eq (Region.even mask)
      (Tower.grounded s 1 decoder (.bandit primary)).learner := by
  have hprimary' := learner_alike (R := R) (W := W) .primary (r := Region.even mask) rfl
    (p := (0 < ·))
  have hdecoder' := learner_alike (R := R) (W := W) .decoder (r := Region.odd mask hmask) rfl
    (p := (0 < ·))
  have hline := scorers_alike hprimary' hprimary
  have hbase := scorers_alike hdecoder' hdecoder
  have hbelow : ((lineLearner .decoder decoder).onNode Prod.snd fun w s => (s.1, w) :
      LineLearner R W (Example R × Watched R W)).Alike (Bandit.Below (Shows mask)) .eq
        (Region.odd mask hmask) (fun _ => True)
        (decoder.learner.onNode (Tower.optimizer (.bandit primary)) fun o =>
          Tower.setOptimizer o (.bandit primary)) :=
    onNode_alike hbase (fun _ _ h => h) fun _ _ _ _ _ h => h
  refine Grounded.learner_alike (Bandit.learner_alike hline) hbelow s ⟨fun h => h, fun h => ?_⟩
  rw [h]
  rfl

end Watched

/-! ## Runs of a workspace -/

namespace Workspace

/-- The workspaces that calls with hashed batches lead to, also calls that fail. -/
inductive Reached (w₀ : Workspace R W) : Workspace R W → Prop
  | start : Reached w₀ w₀
  | call {w} (learning : Bool) {batch : Batch R} (hw : Reached w₀ w)
      (hbatch : w₀.chain.hasher.Hashed batch) :
    Reached w₀ ((callBatch learning).runOn w batch).2.1

/-- A workspace with a grounded node on a bandit node, over a table of mask `mask`. -/
structure Grounds (s : GroundedSettings R) (decoder primary : Line) (mask : UInt64)
    (hasher : FeatureHasher) (w : Workspace R W) : Prop where
  chain : ∃ (state : GroundedState R W × (Example R × Optimizer R W)) (context : Context R W),
    w.chain = ⟨.tower (.grounded s 1 decoder (.bandit primary)), state, context, hasher⟩ ∧
      state.2.2.weights.mask = mask

end Workspace

namespace Watched

/-- The state of a watched grounded node before any call. -/
def start (state : GroundedState R W × (Example R × Optimizer R W)) :
    GroundedState R W × (Example R × Watched R W) :=
  (state.1, state.2.1, ⟨state.2.2, []⟩)

/-- What a watched run shows of a run: everything that the run leaves, but for the examples for
reuse. -/
structure Faithful
    (run : Except LearnerError Unit ×
      Frame R W (GroundedState R W × (Example R × Watched R W)) (Batch R))
    (actual : Except LearnerError Unit ×
      Frame R W (GroundedState R W × (Example R × Optimizer R W)) (Batch R)) : Prop where
  outcome : run.1 = actual.1
  optimizer : run.2.node.2.2.optimizer = actual.2.node.2.2
  decoderContext : run.2.node.1.decoderContext = actual.2.node.1.decoderContext
  counters : run.2.node.1.counters = actual.2.node.1.counters
  context : run.2.context = actual.2.context
  batch : run.2.input = actual.2.input

/-- A call of a watched grounded node with a batch of even features. -/
theorem call_apart (hmask : IsOdd mask) (s : GroundedSettings R) {decoder primary : Line}
    (hdecoder : decoder.links ≠ []) (hprimary : primary.links ≠ []) (learning : Bool)
    {state : GroundedState R W × (Example R × Optimizer R W)}
    (hstate : state.2.2.weights.mask = mask) (context : Context R W) {batch : Batch R}
    (hbatch : (Region.even mask).HoldsAll batch) :
    let run := ((groundedLearner s 1 decoder primary).call learning).runOn
      ⟨start state, context, batch⟩
    let actual := ((Tower.grounded s 1 decoder (.bandit primary)).learner.call learning).runOn
      ⟨state, context, batch⟩
    Faithful run actual ∧ actual.2.node.2.2.weights.mask = mask ∧
      ∀ v ∈ run.2.node.2.2.visits, v.Apart := by
  intro run actual
  have halike := groundedLearner_alike (W := W) hmask s hdecoder hprimary
  have hstart : Agree (Grounded.Related (Bandit.Below (Shows mask)) .eq) .eq
      (Batch.Marked .same (Region.even mask)) ⟨start state, context, batch⟩
      ⟨state, context, batch⟩ :=
    ⟨⟨rfl, rfl, rfl, hstate, by simp [start]⟩, rfl, .refl hbatch⟩
  obtain ⟨hout, hleft⟩ : run.1 = actual.1 ∧ Agree (Grounded.Related (Bandit.Below (Shows mask)) .eq)
      .eq (Batch.Marked .same (Region.even mask)) run.2 actual.2 := by
    cases learning with
    | false => exact halike.predict .same _ _ hstart
    | true => exact halike.learn Marks.teachable_same _ _ hstart
  exact ⟨⟨hout, hleft.node.node.eq.symm, hleft.node.decoderContext, hleft.node.counters.symm,
    hleft.context, hleft.input.eq.symm⟩, hleft.node.node.mask_eq, hleft.node.node.apart⟩

end Watched

namespace Workspace

variable {s : GroundedSettings R} {decoder primary : Line}

/-- Calls with hashed batches keep the shape of a workspace. -/
theorem Reached.grounds (bits : Nat) (hmask : IsOdd mask) (hdecoder : decoder.links ≠ [])
    (hprimary : primary.links ≠ []) {w₀ w : Workspace R W}
    (h₀ : Grounds s decoder primary mask (.ofBits bits 2) w₀) (hw : Reached w₀ w) :
    Grounds s decoder primary mask (.ofBits bits 2) w := by
  have hhasher : w₀.chain.hasher = .ofBits bits 2 := by
    obtain ⟨_, _, hchain, -⟩ := h₀
    rw [hchain]
  induction hw with
  | start => exact h₀
  | @call w learning batch _ hbatch ih =>
    obtain ⟨config, chain, journal⟩ := w
    obtain ⟨state, context, rfl, hstate⟩ := ih
    rw [hhasher] at hbatch
    obtain ⟨-, hmask', -⟩ := Watched.call_apart hmask s hdecoder hprimary
      (learns context batch learning) hstate context hbatch.holdsAll
    have hrun := runOn_callBatch learning config (.grounded s 1 decoder (.bandit primary)) state
      context (.ofBits bits 2) journal batch
    exact ⟨_, _, congrArg (fun run => run.2.1.chain) hrun, hmask'⟩

/-- What holds of a grounded workspace whose hasher is `hasher`: the chain is a grounded node on a
bandit node, the hasher works for two problems, and whatever call with a hashed batch comes next,
with the optimizer watched it goes on as it does, every call for the decoder keeping to the odd groups
and every call for the primary policy to the even ones. -/
def ProblemsApart (hasher : FeatureHasher) (w : Workspace R W) : Prop :=
  hasher.multiplier = 2 ∧
  ∃ (s : GroundedSettings R) (decoder primary : Line)
    (state : GroundedState R W × (Example R × Optimizer R W)) (context : Context R W),
    w.chain = ⟨.tower (.grounded s 1 decoder (.bandit primary)), state, context, hasher⟩ ∧
    ∀ (learning : Bool) (batch : Batch R), hasher.Hashed batch →
      let run := ((Watched.groundedLearner s 1 decoder primary).call learning).runOn
        ⟨Watched.start state, context, batch⟩
      Watched.Faithful run
        (((Tower.grounded s 1 decoder (.bandit primary)).learner.call learning).runOn
          ⟨state, context, batch⟩) ∧
      ∀ v ∈ run.2.node.2.2.visits, v.Apart

/-- In every run of a grounded workspace on hashed batches, the calls that reach the optimizer keep
to their problems, whatever state such a run led to. -/
theorem problems_apart {c : Config R} (hc : c.grounded.enabled = true) {w₀ w : Workspace R W}
    (hnew : Workspace.new c = .ok w₀) (hw : Reached w₀ w) : ProblemsApart w₀.chain.hasher w := by
  cases fresh_of_new hnew with
  | line p h => simp [Config.hasBandit, hc] at h
  | bandit p h h' => exact absurd (hc.symm.trans h') (by decide)
  | grounded p h base decoderContext hloss hcontext =>
    have hmask := isOdd_indexMask p.bits_range.1 p.bits_range.2
    have hdecoder : (base.push .logistic).links ≠ [] := List.cons_ne_nil _ _
    have hprimary : p.line.links ≠ [] := List.cons_ne_nil _ _
    obtain ⟨state, context, hchain, hstate⟩ := hw.grounds c.weights.bits.toNat hmask hdecoder
      hprimary ⟨_, _, rfl, rfl⟩
    refine ⟨by rfl, _, _, _, state, context, hchain, fun learning batch hbatch => ?_⟩
    obtain ⟨hfaithful, -, hapart⟩ := Watched.call_apart hmask (Config.Parts.settings c) hdecoder
      hprimary learning hstate context hbatch.holdsAll
    exact ⟨hfaithful, hapart⟩

/-- The default grounded workspace after a batch of which it has chosen a line, so that the decoder was
called for this line. -/
theorem problems_apart_after_batch :
    let w₀ := Config.defaultWorkspace
    let batch := clickBatch w₀.chain.hasher
    (Config.defaultGrounded.grounded.enabled = true ∧
      Workspace.new Config.defaultGrounded = .ok w₀ ∧
      w₀.chain.hasher.Hashed batch ∧ Grounded.chosen? batch = some 0) ∧
      ProblemsApart w₀.chain.hasher ((callBatch true).runOn w₀ batch).2.1 := by
  intro w₀ batch
  have hbatch : w₀.chain.hasher.Hashed batch := hashed_clickBatch _
  exact ⟨⟨rfl, Config.new_defaultGrounded, hbatch, by decide +kernel⟩,
    problems_apart rfl Config.new_defaultGrounded (.call true .start hbatch)⟩

end Workspace

end OnlineLearning
