import Mathlib.Logic.Basic
import OnlineLearning.Proofs.AlikeStack
import OnlineLearning.Proofs.WorkspaceCalls

/-!
# Workspaces over optimizers that act alike

* `Request` and `Answer` are the calls that a workspace takes and what they come back with;
* `WorkspaceRel` are the relations between workspaces that no call breaks: `Workspace.Related` and
  `Workspace.Logged` relate workspaces without a journal, and with one journal, whose chains are
  related;
* `WorkspaceRel.answers_remarked`: related workspaces answer requests that differ in marks alike, and
  stay related; `WorkspaceRel.answers_eq`: they give one answer to one request.
-/

namespace OnlineLearning

/-- A call on a workspace with its input. -/
inductive Request (R : Type) where
  | predict (ec : Example R)
  | learn (ec : Example R)
  | sensitivity (ec : Example R)
  | predictBatch (batch : Batch R)
  | learnBatch (batch : Batch R)

/-- The outcome of a call and what became of its input. -/
inductive Answer (R : Type) where
  | line (outcome : Except LearnerError Unit) (ec : Example R)
  | sensitivity (outcome : Except LearnerError R) (ec : Example R)
  | batch (outcome : Except LearnerError Unit) (batch : Batch R)

variable {R W ι α β : Type} [Scalar R] [Number W] [Widening R W]

/-- Requests that differ in nothing but marks: in those of batches that are learned as `L` has it, in
others as `M` has it. -/
inductive Request.Remarked (M L : Marks) : Request R → Request R → Prop
  | predict {ec ec'} (h : ec.Remarked M ec') : Remarked M L (.predict ec) (.predict ec')
  | learn {ec ec'} (h : ec.Remarked M ec') : Remarked M L (.learn ec) (.learn ec')
  | sensitivity {ec ec'} (h : ec.Remarked M ec') : Remarked M L (.sensitivity ec) (.sensitivity ec')
  | predictBatch {batch batch'} (h : List.Forall₂ (Example.Remarked M) batch batch') :
    Remarked M L (.predictBatch batch) (.predictBatch batch')
  | learnBatch {batch batch'} (h : List.Forall₂ (Example.Remarked L) batch batch') :
    Remarked M L (.learnBatch batch) (.learnBatch batch')

theorem Request.Remarked.refl (request : Request R) : request.Remarked .same .same request := by
  have hbatch (batch : Batch R) : List.Forall₂ (Example.Remarked .same) batch batch :=
    List.forall₂_same.mpr fun _ _ => ⟨_, rfl, rfl⟩
  cases request with
  | predict ec => exact .predict ⟨_, rfl, rfl⟩
  | learn ec => exact .learn ⟨_, rfl, rfl⟩
  | sensitivity ec => exact .sensitivity ⟨_, rfl, rfl⟩
  | predictBatch batch => exact .predictBatch (hbatch batch)
  | learnBatch batch => exact .learnBatch (hbatch batch)

/-- Answers that differ in nothing but the marks of what became of the inputs. -/
inductive Answer.Remarked (M : Marks) : Answer R → Answer R → Prop
  | line {ec ec'} (outcome) (h : ec.Remarked M ec') :
    Remarked M (.line outcome ec) (.line outcome ec')
  | sensitivity {ec ec'} (outcome) (h : ec.Remarked M ec') :
    Remarked M (.sensitivity outcome ec) (.sensitivity outcome ec')
  | batch {batch batch'} (outcome) (h : List.Forall₂ (Example.Remarked M) batch batch') :
    Remarked M (.batch outcome batch) (.batch outcome batch')

theorem Answer.Remarked.eq {a a' : Answer R} (h : a.Remarked .same a') : a' = a := by
  have hwhole {ec ec' : Example R} (hec : ec.Remarked .same ec') :
      Example.Marked .same (Region.whole 0) ec ec' := ⟨hec, Region.holds_whole ec⟩
  cases h with
  | line outcome hec => rw [(hwhole hec).eq]
  | sensitivity outcome hec => rw [(hwhole hec).eq]
  | batch outcome hbatch =>
    have hwhole : Batch.Marked .same (Region.whole 0) _ _ := .of_remarked hbatch
    rw [hwhole.eq]

namespace Workspace

/-- The answer to a request, and the workspace that the call leaves. -/
def answer (w : Workspace R W) : Request R → Answer R × Workspace R W
  | .predict ec =>
    let run := predict.runOn w ec
    (.line run.1 run.2.2, run.2.1)
  | .learn ec =>
    let run := learn.runOn w ec
    (.line run.1 run.2.2, run.2.1)
  | .sensitivity ec =>
    let run := sensitivity.runOn w ec
    (.sensitivity run.1 run.2.2, run.2.1)
  | .predictBatch batch =>
    let run := predictBatch.runOn w batch
    (.batch run.1 run.2.2, run.2.1)
  | .learnBatch batch =>
    let run := learnBatch.runOn w batch
    (.batch run.1 run.2.2, run.2.1)

/-- The answers to requests made one after another. -/
def answers (w : Workspace R W) : List (Request R) → List (Answer R) × Workspace R W
  | [] => ([], w)
  | request :: rest =>
    let (answer, left) := w.answer request
    let (later, left) := left.answers rest
    (answer :: later, left)

/-- Workspaces without a journal on related chains. -/
structure Related (B : Bond R W) (stack : Stack R) (hasher : FeatureHasher)
    (w w' : Workspace R W) : Prop where
  chain : Chain.Related B stack hasher w.chain w'.chain
  journal : w.journal = none
  journal' : w'.journal = none

/-- Workspaces with one journal, whose file can be reached, on related chains. -/
structure Logged (B : Bond R W) (stack : Stack R) (hasher : FeatureHasher)
    (w w' : Workspace R W) : Prop where
  chain : Chain.Related B stack hasher w.chain w'.chain
  journal : w'.journal = w.journal
  reachable : ∀ journal, w.journal = some journal → journal.file = .reachable

/-- A workspace after an example was counted. -/
def tallied (w : Workspace R W) (label : Option R) (prediction : R) (features : Nat) :
    Workspace R W :=
  let t := tally w.chain.context w.journal label prediction features
  ⟨w.config, { w.chain with context := t.2.1 }, t.2.2⟩

end Workspace

/-! ## Relations between workspaces -/

omit [Scalar R] [Widening R W] in
/-- A journal with a reachable file takes every entry, and goes on with the file. -/
theorem Journal.observe_reachable {journal : Journal R W} (h : journal.file = .reachable)
    (stats : Stats R W) (label : Option R) (prediction : R) (features : Nat) :
    let seen := journal.observe stats label prediction features
    seen.1 = .ok () ∧ seen.2.1.file = .reachable ∧
      (seen.2.2 = stats ∨ seen.2.2 = { stats with sumLossSinceLastDump := 0 }) := by
  intro seen
  by_cases hdue : stats.exampleNumber < journal.nextEntry
  · have hseen : seen = (.ok (), journal, stats) := if_pos hdue
    rw [hseen]
    exact ⟨rfl, h, .inl rfl⟩
  · have hseen : seen = _ := if_neg hdue
    rw [h] at hseen
    rw [hseen]
    exact ⟨rfl, rfl, .inr rfl⟩

/-- A relation between workspaces on chains related by `K`. It outlives all calls that chains do. -/
structure WorkspaceRel (K : Chain R W → Chain R W → Prop) where
  rel : Workspace R W → Workspace R W → Prop
  chain {w w'} : rel w w' → K w.chain w'.chain
  onChain {w w' c c'} : rel w w' → K c c' → rel { w with chain := c } { w' with chain := c' }
  tally {w w'} (label : Option R) (prediction : R) (features : Nat) : rel w w' →
    (Workspace.tally w'.chain.context w'.journal label prediction features).1 =
        (Workspace.tally w.chain.context w.journal label prediction features).1 ∧
      rel (w.tallied label prediction features) (w'.tallied label prediction features)

namespace WorkspaceRel

variable {B : Bond R W} {stack : Stack R} {hasher : FeatureHasher}

/-- Without a journal counting an example changes the statistics only. -/
def silent : WorkspaceRel (Chain.Related B stack hasher) where
  rel := Workspace.Related B stack hasher
  chain h := h.chain
  onChain h hchain := ⟨hchain, h.journal, h.journal'⟩
  tally {w w'} label prediction features h := by
    obtain ⟨config, _, _⟩ := w
    obtain ⟨config', _, _⟩ := w'
    obtain ⟨⟨hstate, hcontext⟩, rfl, rfl⟩ := h
    exact ⟨rfl, ⟨hstate, B.count features hcontext⟩, rfl, rfl⟩

/-- One journal sees one example in the same statistics. -/
def logged : WorkspaceRel (Chain.Related B stack hasher) where
  rel := Workspace.Logged B stack hasher
  chain h := h.chain
  onChain h hchain := ⟨hchain, h.journal, h.reachable⟩
  tally {w w'} label prediction features h := by
    obtain ⟨config, _, journal⟩ := w
    obtain ⟨config', _, _⟩ := w'
    obtain ⟨@⟨_, _, context, context', hstate, hcontext⟩, hjournal, hreachable⟩ := h
    cases hjournal
    have hstats := B.stats hcontext
    have hcounted := B.count features hcontext
    cases journal with
    | none => exact ⟨rfl, ⟨hstate, hcounted⟩, rfl, nofun⟩
    | some journal =>
      obtain ⟨hout, hfile, hleft⟩ := Journal.observe_reachable (hreachable journal rfl)
        (context.stats.recordExample features) label prediction features
      unfold Workspace.tallied Workspace.tally
      dsimp only
      rw [hstats] at hcounted ⊢
      generalize journal.observe (context.stats.recordExample features) label prediction features =
        seen at hout hfile hleft ⊢
      obtain ⟨outcome, journal, stats⟩ := seen
      refine ⟨rfl, ⟨hstate, ?_⟩, rfl, fun _ hsome => ?_⟩
      · rcases hleft with rfl | rfl
        · exact hcounted
        · exact B.dump hcounted
      · cases hsome
        exact hfile

end WorkspaceRel

/-! ## Calls -/

/-- A call that has one outcome on related workspaces and related inputs, which stay related. -/
def WorkspaceM.AlikeOn {K : Chain R W → Chain R W → Prop} (S : WorkspaceRel K) (J : ι → ι → Prop)
    (call : WorkspaceM R W ι α) : Prop :=
  ∀ w w' input input', S.rel w w' → J input input' →
    let run := call.runOn w input
    let run' := call.runOn w' input'
    run'.1 = run.1 ∧ S.rel run.2.1 run'.2.1 ∧ J run.2.2 run'.2.2

namespace WorkspaceM.AlikeOn

omit [Scalar R] [Widening R W]

variable {K : Chain R W → Chain R W → Prop} {S : WorkspaceRel K} {J : ι → ι → Prop}
  {call : WorkspaceM R W ι α}

theorem bind {next : α → WorkspaceM R W ι β} (h : AlikeOn S J call)
    (hnext : ∀ a, AlikeOn S J (next a)) : AlikeOn S J (call >>= next) := by
  intro w w' input input' hw hinput
  obtain ⟨hout, hleft, hinput⟩ := h w w' input input' hw hinput
  rw [runOn_bind, runOn_bind]
  generalize call.runOn w input = run at hout hleft hinput ⊢
  generalize call.runOn w' input' = run' at hout hleft hinput ⊢
  obtain ⟨outcome, left, input⟩ := run
  obtain ⟨_, left', input'⟩ := run'
  cases hout
  cases outcome with
  | error e => exact ⟨rfl, hleft, hinput⟩
  | ok a => exact hnext a left left' input input' hleft hinput

/-- A call that goes on from what it reads, if that is the same on related workspaces. -/
theorem get_bind {next : Workspace R W × ι → WorkspaceM R W ι α}
    (hsame : ∀ w w' input input', S.rel w w' → J input input' →
      next (w', input') = next (w, input))
    (hnext : ∀ read, AlikeOn S J (next read)) : AlikeOn S J (get >>= next) := by
  intro w w' input input' hw hinput
  rw [runOn_bind, runOn_bind, runOn_get, runOn_get]
  dsimp only
  rw [hsame w w' input input' hw hinput]
  exact hnext (w, input) w w' input input' hw hinput

theorem onChain {call : Chain.CallM R W ι α} (h : Chain.AlikeOn K J call) :
    AlikeOn S J (Workspace.onChain call) := by
  intro w w' input input' hw hinput
  obtain ⟨hout, hleft, hinput⟩ := h w.chain w'.chain input input' (S.chain hw) hinput
  exact ⟨hout, S.onChain hw hleft, hinput⟩

theorem account (label : Option R) (prediction : R) (features : Nat) :
    AlikeOn S J (Workspace.account label prediction features) := by
  intro w w' input input' hw hinput
  obtain ⟨hout, hleft⟩ := S.tally label prediction features hw
  rw [Workspace.runOn_account, Workspace.runOn_account]
  exact ⟨hout, hleft, hinput⟩

end WorkspaceM.AlikeOn

namespace WorkspaceRel

open WorkspaceM (AlikeOn)
open Workspace

section

variable {K : Chain R W → Chain R W → Prop} {S : WorkspaceRel K} {M : Marks} {mask : UInt64}
  {r : Region mask}

omit [Widening R W] in
theorem accountExample_alike : AlikeOn S (Example.Marked M r) accountExample := by
  refine .get_bind (fun w w' ec ec' _ hec => ?_) fun _ => .account _ _ _
  obtain ⟨⟨mark, -, rfl⟩, -⟩ := hec
  rfl

omit [Widening R W] in
theorem accountBatch_alike : AlikeOn S (Batch.Marked M r) accountBatch := by
  refine .get_bind (fun w w' batch batch' _ hbatch => ?_) fun _ => .account _ _ _
  dsimp only
  rw [hbatch.bind_head? fun _ _ => rfl, hbatch.flatMap_eq fun _ _ => rfl]

theorem predict_alike (h : Chain.AlikeOn K (Example.Marked M r) (Chain.runLine fun l => l.predict)) :
    AlikeOn S (Example.Marked M r) predict :=
  .bind (.onChain h) fun _ => accountExample_alike

theorem predictBatch_alike
    (h : Chain.AlikeOn K (Batch.Marked M r) (Chain.runBatch fun l => l.predict)) :
    AlikeOn S (Batch.Marked M r) predictBatch :=
  .bind (.onChain h) fun _ => accountBatch_alike

end

variable {B : Bond R W} {stack : Stack R} {hasher : FeatureHasher}
  {S : WorkspaceRel (Chain.Related B stack hasher)} {M L : Marks}

/-- Whether learning gets by without the marks: they are the same, or holdout is off. -/
def Spares (S : WorkspaceRel (Chain.Related B stack hasher)) (M : Marks) : Prop :=
  (∀ trained mark mark', M trained mark mark' → mark' = mark) ∨
    ∀ {w w'}, S.rel w w' → w.chain.context.holdoutOff = true

/-- Marks of which related workspaces take no notice: those related by `L` in batches that are
learned, those related by `M` in all other inputs. -/
structure Blind (S : WorkspaceRel (Chain.Related B stack hasher)) (M L : Marks) : Prop where
  refl : ∀ trained mark, M trained mark mark
  weaker : ∀ trained mark mark', L trained mark mark' → M trained mark mark'
  spares : S.Spares M
  teachable : L.Teachable

theorem blind_same : S.Blind .same .same :=
  ⟨fun _ _ => rfl, fun _ _ _ h => h, .inl fun _ _ _ h => h, Marks.teachable_same⟩

theorem Spares.of_weaker (h : S.Spares M)
    (hL : ∀ trained mark mark', L trained mark mark' → M trained mark mark') : S.Spares L := by
  rcases h with hsame | hoff
  · exact .inl fun trained mark mark' hmark => hsame _ _ _ (hL _ _ _ hmark)
  · exact .inr hoff

variable (hstack : stack.Scored)
include hstack

theorem sensitivity_alike : AlikeOn S (Example.Marked M (Region.whole B.mask)) sensitivity := by
  refine .onChain (Chain.runLine_alike (fun h => NodeM.Alike.get_bind fun f f' hf => ?_) hstack)
  rw [h.sensitivity hf.node hf.context hf.input]
  refine NodeM.Alike.of_pure _ ?_
  rintro _ _ ⟨rfl, rfl⟩
  exact hf

theorem learnBatch_alike (hM : M.Teachable) (hspares : S.Spares M) :
    AlikeOn S (Batch.Marked M (Region.whole B.mask)) learnBatch := by
  have hpredict : Chain.AlikeOn (Chain.Related B stack hasher) (Batch.Marked M (Region.whole B.mask))
      (Chain.runBatch fun l => l.predict) :=
    Chain.runBatch_alike (fun h => h.predict M) hstack
  have hlearn : Chain.AlikeOn (Chain.Related B stack hasher) (Batch.Marked M (Region.whole B.mask))
      (Chain.runBatch fun l => l.learn) :=
    Chain.runBatch_alike (fun h => h.learn hM) hstack
  refine .get_bind (fun w w' batch batch' hw hbatch => ?_) fun read => ?_
  · have hoff := B.holdoutOff (S.chain hw).context
    dsimp only
    rw [hoff]
    rcases hspares with hsame | hspares
    · rw [(hbatch.weaken hsame).eq]
    · rw [hspares hw]
      rfl
  · dsimp only
    split
    · exact .bind (.onChain hpredict) fun _ => accountBatch_alike
    · exact .bind (.onChain hlearn) fun _ => accountBatch_alike

omit hstack [Scalar R] [Number W] [Widening R W] in
theorem runOn_releaseHoldout (w : Workspace R W) (ec : Example R) :
    releaseHoldout.runOn w ec =
      (.ok (), w, if w.chain.context.holdoutOff && !w.chain.stack.isMultiline then
        { ec with holdout := false } else ec) := by
  unfold releaseHoldout
  rw [WorkspaceM.runOn_modify]
  dsimp only
  split <;> rfl

/-- A tower refuses an example. Where it is learned, its mark is the same or is taken away first. -/
theorem learn_alike (hrefl : ∀ trained mark, M trained mark mark) (hspares : S.Spares M) :
    AlikeOn S (Example.Marked M (Region.whole B.mask)) learn := by
  intro w w' ec ec' hw hec
  obtain ⟨hw₁, hw₂⟩ := (S.chain hw).stack_eq
  have hoff := B.holdoutOff (S.chain hw).context
  unfold learn
  rw [WorkspaceM.runOn_bind, WorkspaceM.runOn_bind, runOn_releaseHoldout, runOn_releaseHoldout,
    hw₁, hw₂, hoff]
  dsimp only
  cases stack with
  | tower t =>
    have hlearn : AlikeOn S (Example.Marked M (Region.whole B.mask))
        (Workspace.onChain (Chain.runLine fun l => l.learn) >>= fun _ => accountExample) :=
      .bind (.onChain (Chain.runLine_tower fun l => l.learn)) fun _ => accountExample_alike
    rw [Stack.isMultiline, Bool.not_true, Bool.and_false]
    exact hlearn w w' ec ec' hw hec
  | line l =>
    have hlearn : AlikeOn S (Example.Marked .same (Region.whole B.mask))
        (Workspace.onChain (Chain.runLine fun l => l.learn) >>= fun _ => accountExample) := by
      refine .bind (.onChain (Chain.runLine_alike (fun h => ?_) hstack)) fun _ =>
        accountExample_alike
      exact h.learn.weaken (fun _ _ hf => ⟨hf, trivial⟩) fun _ _ hf => hf
    -- what is learned has one mark in both runs: it was the same, or both were taken away
    have hreleased : (if w.chain.context.holdoutOff && !(Stack.line l : Stack R).isMultiline then
          { ec' with holdout := false } else ec') =
        if w.chain.context.holdoutOff && !(Stack.line l : Stack R).isMultiline then
          { ec with holdout := false } else ec := by
      rcases hspares with hsame | hspares
      · rw [(hec.weaken hsame).eq]
      · obtain ⟨⟨mark, -, rfl⟩, -⟩ := hec
        rw [hspares hw]
        rfl
    rw [hreleased]
    obtain ⟨hout, hleft, hinput⟩ := hlearn w w' _ _ hw (.refl (Region.holds_whole _))
    refine ⟨hout, hleft, hinput.weaken fun _ _ _ hmark => ?_⟩
    cases hmark
    exact hrefl _ _

/-! ## Answers -/

/-- Related workspaces answer requests that differ in marks alike and stay related. -/
theorem answer_remarked (hblind : S.Blind M L) {w w' : Workspace R W} (h : S.rel w w')
    {request request' : Request R} (hrequest : request.Remarked M L request') :
    (w.answer request).1.Remarked M (w'.answer request').1 ∧
      S.rel (w.answer request).2 (w'.answer request').2 := by
  have hwhole {ec ec' : Example R} (hec : ec.Remarked M ec') :
      Example.Marked M (Region.whole B.mask) ec ec' := ⟨hec, Region.holds_whole ec⟩
  have hspares : S.Spares L := hblind.spares.of_weaker hblind.weaker
  cases hrequest with
  | predict hec =>
    obtain ⟨hout, hleft, hinput⟩ := predict_alike (S := S)
      (Chain.runLine_alike (fun h => h.predict M) hstack) w w' _ _ h (hwhole hec)
    unfold answer
    dsimp only
    rw [hout]
    exact ⟨.line _ hinput.remarked, hleft⟩
  | learn hec =>
    obtain ⟨hout, hleft, hinput⟩ :=
      learn_alike hstack hblind.refl hblind.spares w w' _ _ h (hwhole hec)
    unfold answer
    dsimp only
    rw [hout]
    exact ⟨.line _ hinput.remarked, hleft⟩
  | sensitivity hec =>
    obtain ⟨hout, hleft, hinput⟩ := sensitivity_alike (S := S) hstack w w' _ _ h (hwhole hec)
    unfold answer
    dsimp only
    rw [hout]
    exact ⟨.sensitivity _ hinput.remarked, hleft⟩
  | predictBatch hbatch =>
    obtain ⟨hout, hleft, hinput⟩ :=
      predictBatch_alike (S := S)
      (Chain.runBatch_alike (fun h => h.predict M) hstack) w w' _ _ h
      (Batch.Marked.of_remarked hbatch)
    unfold answer
    dsimp only
    rw [hout]
    exact ⟨.batch _ hinput.remarked, hleft⟩
  | learnBatch hbatch =>
    obtain ⟨hout, hleft, hinput⟩ := learnBatch_alike hstack hblind.teachable hspares w w' _ _ h
      (Batch.Marked.of_remarked hbatch)
    unfold answer
    dsimp only
    rw [hout]
    exact ⟨.batch _ (hinput.weaken hblind.weaker).remarked, hleft⟩

theorem answers_remarked (hblind : S.Blind M L) {w w' : Workspace R W} (h : S.rel w w')
    {requests requests' : List (Request R)}
    (hrequests : List.Forall₂ (Request.Remarked M L) requests requests') :
    List.Forall₂ (Answer.Remarked M) (w.answers requests).1 (w'.answers requests').1 ∧
      S.rel (w.answers requests).2 (w'.answers requests').2 := by
  induction hrequests generalizing w w' with
  | nil => exact ⟨.nil, h⟩
  | cons hrequest _ ih =>
    obtain ⟨hanswer, hleft⟩ := answer_remarked hstack hblind h hrequest
    obtain ⟨hrest, hend⟩ := ih hleft
    exact ⟨.cons hanswer hrest, hend⟩

/-- Related workspaces give one answer to a request and stay related. -/
theorem answer_eq {w w' : Workspace R W} (h : S.rel w w') (request : Request R) :
    (w'.answer request).1 = (w.answer request).1 ∧
      S.rel (w.answer request).2 (w'.answer request).2 := by
  obtain ⟨hanswer, hleft⟩ := answer_remarked hstack blind_same h (.refl request)
  exact ⟨hanswer.eq, hleft⟩

theorem answers_eq {w w' : Workspace R W} (h : S.rel w w') (requests : List (Request R)) :
    (w'.answers requests).1 = (w.answers requests).1 ∧
      S.rel (w.answers requests).2 (w'.answers requests).2 := by
  induction requests generalizing w w' with
  | nil => exact ⟨rfl, h⟩
  | cons request rest ih =>
    obtain ⟨hanswer, hleft⟩ := answer_eq hstack h request
    obtain ⟨hrest, hend⟩ := ih hleft
    exact ⟨congrArg₂ List.cons hanswer hrest, hend⟩

end WorkspaceRel

namespace Workspace

variable {B : Bond R W} {stack : Stack R} {hasher : FeatureHasher} (hstack : stack.Scored)
include hstack

/-- Related workspaces without a journal give the same answers to any requests and stay related. -/
theorem answers_alike {w w' : Workspace R W} (h : Related B stack hasher w w')
    (requests : List (Request R)) :
    (w'.answers requests).1 = (w.answers requests).1 ∧
      Related B stack hasher (w.answers requests).2 (w'.answers requests).2 :=
  WorkspaceRel.answers_eq (S := .silent) hstack h requests

end Workspace

end OnlineLearning
