import OnlineLearning.Proofs.AlikeStack
import OnlineLearning.Proofs.Groups
import OnlineLearning.Proofs.Loads
import OnlineLearning.Proofs.ZeroGroups

/-!
# Models of chains that are alike

Tables with the same groups have one model and take one model alike, however they are laid out, and
so do optimizers, towers and chains on them.

* `LoadM.Alike` is the relation between loads, with the rules by which it passes to compositions;
* `WeightTable.Store.load_alike`: what clearing and changes of groups keep, a load keeps;
  `WeightTable.load_alike` is the case of tables with the same groups;
* `Chain.Related.load` and `Chain.Related.fields_eq` pass loads and models on from related optimizers
  to related chains.
-/

namespace OnlineLearning

variable {σ τ σ' τ' α β : Type}

/-! ## The relation between loads -/

/-- From states related by `P` both loads have the same outcome and leave the same buffer, and they
leave states related by `Q`. -/
def LoadM.Alike (P Q : σ → τ → Prop) (load : LoadM σ α) (load' : LoadM τ α) : Prop :=
  ∀ buffer s s', P s s' →
    let run := load.runOn buffer s
    let run' := load'.runOn buffer s'
    run'.1 = run.1 ∧ run'.2.1 = run.2.1 ∧ Q run.2.2 run'.2.2

namespace LoadM.Alike

variable {P Q : σ → τ → Prop} {load : LoadM σ α} {load' : LoadM τ α}

theorem of_pure (a : α) (h : ∀ s s', P s s' → Q s s') :
    Alike P Q (pure a : LoadM σ α) (pure a) :=
  fun _ _ _ hs => ⟨rfl, rfl, h _ _ hs⟩

theorem of_throw (e : ModelError) (h : ∀ s s', P s s' → Q s s') :
    Alike P Q (throw e : LoadM σ α) (throw e) :=
  fun _ _ _ hs => ⟨rfl, rfl, h _ _ hs⟩

theorem of_modifyState {f : σ → σ} {f' : τ → τ} (h : ∀ s s', P s s' → Q (f s) (f' s')) :
    Alike P Q (modifyState f) (modifyState f') :=
  fun _ _ _ hs => ⟨rfl, rfl, h _ _ hs⟩

theorem of_take (format : ModelFormat) (α : Type) [Persistent α] (name : String) :
    Alike P P (take format α name : LoadM σ α) (take format α name) :=
  fun _ _ _ hs => ⟨rfl, rfl, hs⟩

theorem bind {next : α → LoadM σ β} {next' : α → LoadM τ β} (h : Alike P Q load load')
    (hnext : ∀ a, Alike Q Q (next a) (next' a)) : Alike P Q (load >>= next) (load' >>= next') := by
  intro buffer s s' hs
  obtain ⟨hout, hbuffer, hleft⟩ := h buffer s s' hs
  unfold LoadM.runOn at *
  rw [ExceptT.run_bind, ExceptT.run_bind, StateT.run_bind, StateT.run_bind]
  generalize (ExceptT.run load).run (buffer, s) = run at hout hbuffer hleft ⊢
  generalize (ExceptT.run load').run (buffer, s') = run' at hout hbuffer hleft ⊢
  obtain ⟨outcome, left, t⟩ := run
  obtain ⟨_, _, t'⟩ := run'
  cases hout
  cases hbuffer
  cases outcome with
  | error e => exact ⟨rfl, rfl, hleft⟩
  | ok a => exact hnext a left t t' hleft

/-- Loads that go on from the state that they read. -/
theorem get_bind {next : ModelBuffer × σ → LoadM σ β} {next' : ModelBuffer × τ → LoadM τ β}
    (h : ∀ buffer s s', P s s' →
      Alike (fun t t' => t = s ∧ t' = s') Q (next (buffer, s)) (next' (buffer, s'))) :
    Alike P Q (get >>= next) (get >>= next') :=
  fun buffer s s' hs => h buffer s s' hs buffer s s' ⟨rfl, rfl⟩

theorem onPart {N : σ' → τ' → Prop} {load : LoadM σ' α} {load' : LoadM τ' α}
    (h : Alike N N load load') {part : σ'} {part' : τ'} (hpart : N part part') {put : σ' → σ}
    {put' : τ' → τ} (hput : ∀ p p', N p p' → Q (put p) (put' p')) :
    Alike P Q (LoadM.onPart part put load) (LoadM.onPart part' put' load') := by
  intro buffer s s' _
  obtain ⟨hout, hbuffer, hleft⟩ := h buffer part part' hpart
  exact ⟨hout, hbuffer, hput _ _ hleft⟩

end LoadM.Alike

open LoadM (Alike)

/-! ## Tables -/

namespace WeightTable

variable {width : Nat} {mask : UInt64} {t t' : WeightTable Float32 width}

/-- Tables of mask `mask` with the same groups. -/
structure SameGroups (mask : UInt64) (t t' : WeightTable Float32 width) : Prop where
  mask_eq : t.mask = mask
  agree : t.AgreeOn (fun _ => True) t'

namespace SameGroups

theorem group_eq (h : SameGroups mask t t') (i : UInt64) : t'.group i = t.group i :=
  h.agree.group i trivial

theorem nonZeroGroups_eq (h : SameGroups mask t t') : t'.nonZeroGroups = t.nonZeroGroups :=
  WeightTable.nonZeroGroups_eq (isNonZero_zeroGroup _) h.agree.mask h.group_eq

theorem fields_eq (h : SameGroups mask t t') (resume : Bool) :
    t'.fields resume = t.fields resume := by
  unfold fields
  rw [h.nonZeroGroups_eq]

theorem clear (h : SameGroups mask t t') : SameGroups mask t.clear t'.clear :=
  ⟨h.mask_eq, h.agree.mask, fun i _ => by rw [group_clear, group_clear]⟩

theorem modify (h : SameGroups mask t t') (i : UInt64)
    (f : Vector Float32 width → Vector Float32 width) :
    SameGroups mask (t.modify i f) (t'.modify i f) :=
  ⟨h.mask_eq, h.agree.modify trivial f⟩

end SameGroups

/-! ### Loads into anything that holds groups -/

/-- What a load does to something that holds groups: it clears it and changes groups. -/
structure Store (width : Nat) (σ : Type) where
  clear : σ → σ
  modify : σ → UInt64 → (Vector Float32 width → Vector Float32 width) → σ

namespace Store

/-- Takes a group and writes it. -/
def loadGroup (S : Store width σ) (format : ModelFormat) (resume : Bool) : LoadM σ Unit := do
  if resume then
    let field ← LoadM.take format (UInt64 × List Float32) "weights.group"
    if h : field.2.length = width then
      LoadM.modifyState fun s => S.modify s field.1 fun _ => ⟨field.2.toArray, h⟩
    else throw (.widthMismatch width field.2.length)
  else
    let field ← LoadM.take format (UInt64 × Float32) "weights.param"
    LoadM.modifyState fun s => S.modify s field.1 fun g => g.setIfInBounds 0 field.2

def loadGroups (S : Store width σ) (format : ModelFormat) (resume : Bool) : Nat → LoadM σ Unit
  | 0 => pure ()
  | count + 1 => do
    S.loadGroup format resume
    S.loadGroups format resume count

/-- Replaces all groups. -/
def load (S : Store width σ) (format : ModelFormat) (resume : Bool) : LoadM σ Unit := do
  LoadM.modifyState S.clear
  if resume then
    let found ← LoadM.take format UInt64 "weights.width"
    if found.toNat ≠ width then throw (.widthMismatch width found.toNat)
  let count ← LoadM.take format UInt64 "weights.count"
  S.loadGroups format resume count.toNat

variable {S : Store width σ} {S' : Store width τ} {N : σ → τ → Prop}

section

variable (hmodify : ∀ {s s'} index change, N s s' → N (S.modify s index change)
  (S'.modify s' index change))
include hmodify

theorem loadGroup_alike (format : ModelFormat) (resume : Bool) :
    Alike N N (S.loadGroup format resume) (S'.loadGroup format resume) := by
  cases resume with
  | true =>
    refine .bind (.of_take format _ _) fun field => ?_
    split
    · exact .of_modifyState fun _ _ h => hmodify _ _ h
    · exact .of_throw _ fun _ _ h => h
  | false =>
    refine .bind (.of_take format _ _) fun field => ?_
    exact .of_modifyState fun _ _ h => hmodify _ _ h

theorem loadGroups_alike (format : ModelFormat) (resume : Bool) (count : Nat) :
    Alike N N (S.loadGroups format resume count) (S'.loadGroups format resume count) := by
  induction count with
  | zero => exact .of_pure () fun _ _ h => h
  | succ count ih => exact .bind (loadGroup_alike hmodify format resume) fun _ => ih

/-- What clearing and changes of groups keep, a load keeps. -/
theorem load_alike (hclear : ∀ {s s'}, N s s' → N (S.clear s) (S'.clear s'))
    (format : ModelFormat) (resume : Bool) :
    Alike N N (S.load format resume) (S'.load format resume) := by
  have hcounted : Alike N N
      (LoadM.take format UInt64 "weights.count" >>= fun count =>
        S.loadGroups format resume count.toNat)
      (LoadM.take format UInt64 "weights.count" >>= fun count =>
        S'.loadGroups format resume count.toNat) :=
    .bind (.of_take format _ _) fun _ => loadGroups_alike hmodify format resume _
  refine .bind (.of_modifyState fun _ _ h => hclear h) fun _ => ?_
  cases resume with
  | false => exact hcounted
  | true =>
    refine .bind (.of_take format _ _) fun found => ?_
    dsimp only
    split
    · exact .bind (.of_throw _ fun _ _ h => h) fun _ => hcounted
    · exact hcounted

end

end Store

/-- A table as something that holds groups. -/
def store : Store width (WeightTable Float32 width) := ⟨clear, modify⟩

theorem loadGroups_eq (format : ModelFormat) (resume : Bool) (count : Nat) :
    (loadGroups format resume count : LoadM (WeightTable Float32 width) Unit) =
      store.loadGroups format resume count := by
  induction count with
  | zero => rfl
  | succ count ih =>
    have hgroup : (loadGroup format resume : LoadM (WeightTable Float32 width) Unit) =
      store.loadGroup format resume := rfl
    unfold loadGroups Store.loadGroups
    rw [hgroup, ih]

theorem load_eq (format : ModelFormat) (resume : Bool) :
    (load format resume : LoadM (WeightTable Float32 width) Unit) = store.load format resume := by
  unfold load Store.load
  simp only [loadGroups_eq]
  rfl

theorem load_alike (format : ModelFormat) (resume : Bool) :
    Alike (SameGroups mask) (SameGroups mask)
      (load format resume : LoadM (WeightTable Float32 width) Unit) (load format resume) := by
  rw [load_eq]
  exact Store.load_alike (fun index change h => h.modify index change) (fun h => h.clear) format
    resume

end WeightTable

/-! ## Optimizers -/

namespace Optimizer

variable {mask : UInt64}

/-- Optimizers that differ in how their tables are laid out only. -/
def Relaid (mask : UInt64) (o o' : Optimizer Float32 Float) : Prop :=
  ∃ t : WeightTable Float32 o.mode.width,
    o' = { o with weights := t } ∧ WeightTable.SameGroups mask o.weights t

theorem Relaid.fields_eq {o o' : Optimizer Float32 Float} (h : Relaid mask o o')
    (c : NarrowContext) : o'.fields c = o.fields c := by
  obtain ⟨t, rfl, ht⟩ := h
  unfold fields
  dsimp only
  rw [ht.fields_eq]

/-- What a load works on: optimizers that differ in how their tables are laid out, and a context. -/
def RelaidIn (mask : UInt64) (s s' : Optimizer Float32 Float × NarrowContext) : Prop :=
  Relaid mask s.1 s'.1 ∧ s.2 = s'.2

theorem modify_alike {f : Optimizer Float32 Float × NarrowContext →
      Optimizer Float32 Float × NarrowContext}
    (hf : ∀ o c (t : WeightTable Float32 o.mode.width), WeightTable.SameGroups mask o.weights t →
      RelaidIn mask (f (o, c)) (f ({ o with weights := t }, c))) :
    Alike (RelaidIn mask) (RelaidIn mask) (LoadM.modifyState f) (LoadM.modifyState f) := by
  refine .of_modifyState ?_
  rintro ⟨o, c⟩ ⟨_, _⟩ ⟨⟨t, rfl, ht⟩, rfl⟩
  exact hf o c t ht

theorem loadTotals_alike (format : ModelFormat) :
    Alike (RelaidIn mask) (RelaidIn mask) (loadTotals format) (loadTotals format) := by
  refine .bind (.of_take format _ _) fun _ => ?_
  refine .bind (modify_alike fun _ _ t ht => ⟨⟨t, rfl, ht⟩, rfl⟩) fun _ => ?_
  refine .bind (.of_take format _ _) fun _ => ?_
  refine .bind (modify_alike fun _ _ t ht => ⟨⟨t, rfl, ht⟩, rfl⟩) fun _ => ?_
  refine .bind (.of_take format _ _) fun _ => ?_
  refine .bind (modify_alike fun _ _ t ht => ⟨⟨t, rfl, ht⟩, rfl⟩) fun _ => ?_
  refine .bind (.of_take format _ _) fun _ => ?_
  exact modify_alike fun _ _ t ht => ⟨⟨t, rfl, ht⟩, rfl⟩

/-- The last part of a load, that of the table. -/
def loadTable (format : ModelFormat) (resume : Bool) :
    LoadM (Optimizer Float32 Float × NarrowContext) Unit := do
  let s := (← get).2
  LoadM.onPart s.1.weights (fun weights => ({ s.1 with weights }, s.2))
    (WeightTable.load format resume)
  LoadM.modifyState fun s => (s.1.refreshAverage, s.2)

theorem load_alike (format : ModelFormat) :
    Alike (RelaidIn mask) (RelaidIn mask) (load format) (load format) := by
  have htable (resume : Bool) : Alike (RelaidIn mask) (RelaidIn mask) (loadTable format resume)
      (loadTable format resume) := by
    refine .get_bind ?_
    rintro buffer ⟨o, c⟩ ⟨_, _⟩ ⟨⟨t, rfl, ht⟩, rfl⟩
    refine .bind (.onPart (WeightTable.load_alike format resume) ht
      fun _ t ht => ⟨⟨t, rfl, ht⟩, rfl⟩) fun _ => ?_
    exact modify_alike fun _ _ t ht => ⟨⟨t, rfl, ht⟩, rfl⟩
  refine .bind (modify_alike fun _ _ t ht => ⟨⟨t.clear, rfl, ht.clear⟩, rfl⟩) fun _ => ?_
  refine .bind (.of_take format _ _) fun resume => ?_
  cases resume with
  | true => exact .bind (loadTotals_alike format) fun _ => htable true
  | false => exact htable false

end Optimizer

/-! ## Towers and chains -/

variable {B : Bond Float32 Float}

/-- States of nodes that are related, in related contexts. -/
def ContextRel.With (C : ContextRel Float32 Float) (N : σ → τ → Prop) (s : σ × NarrowContext)
    (s' : τ × NarrowContext) : Prop :=
  N s.1 s'.1 ∧ C.rel s.2 s'.2

/-- States of nodes that are related, in contexts that a bond relates. -/
def Bond.InContext (B : Bond Float32 Float) (N : σ → τ → Prop) (s : σ × NarrowContext)
    (s' : τ × NarrowContext) : Prop :=
  N s.1 s'.1 ∧ B.primary.rel s.2 s'.2

/-- Grounded nodes that differ in the example for reuse, with related contexts of the decoders. -/
def Bond.SameCounters (B : Bond Float32 Float) (s s' : GroundedState Float32 Float) : Prop :=
  B.decoder.rel s.decoderContext s'.decoderContext ∧ s'.counters = s.counters

theorem Grounded.load_alike (format : ModelFormat) :
    Alike B.SameCounters B.SameCounters (Grounded.load format) (Grounded.load format) :=
  .bind (.of_take format _ _) fun _ => .of_modifyState fun _ _ h => ⟨h.1, rfl⟩

/-- A tower loads a model alike if its optimizers do. -/
theorem Tower.load_alike_in {C : ContextRel Float32 Float} {format : ModelFormat}
    (h : Alike (C.With B.node) (C.With B.node) (Optimizer.load format) (Optimizer.load format))
    (t : Tower Float32) :
    Alike (C.With (t.Related B)) (C.With (t.Related B)) (t.load format) (t.load format) := by
  induction t with
  | bandit l =>
    refine .get_bind ?_
    rintro _ ⟨⟨_, o⟩, c⟩ ⟨⟨_, o'⟩, c'⟩ ⟨hnode, hc⟩
    have hpart : C.With B.node (o, c) (o', c') := ⟨hnode, hc⟩
    exact .onPart h hpart fun _ _ hp => hp
  | grounded _ _ _ primary ih =>
    refine .get_bind ?_
    rintro _ ⟨⟨s, rest⟩, c⟩ ⟨⟨s', rest'⟩, c'⟩ ⟨hs, hc⟩
    refine .bind (.onPart (Grounded.load_alike format) ⟨hs.decoderContext, hs.counters⟩
      fun _ _ hp => ⟨⟨hp.1, hp.2, hs.node⟩, hc⟩) fun _ => .get_bind ?_
    rintro _ ⟨⟨s, rest⟩, c⟩ ⟨⟨s', rest'⟩, c'⟩ ⟨hs, hc⟩
    exact .onPart ih ⟨hs.node, hc⟩ fun _ _ hp => ⟨⟨hs.decoderContext, hs.counters, hp.1⟩, hp.2⟩

theorem Tower.load_alike {format : ModelFormat} (h : Alike (B.InContext B.node)
      (B.InContext B.node) (Optimizer.load format) (Optimizer.load format)) (t : Tower Float32) :
    Alike (B.InContext (t.Related B)) (B.InContext (t.Related B)) (t.load format)
      (t.load format) :=
  load_alike_in (C := B.primary) h t

namespace Chain

variable {stack : Stack Float32} {hasher : FeatureHasher} {c c' : Chain Float32 Float}

/-- A chain loads a model alike if its optimizers do. -/
theorem Related.load (h : Related B stack hasher c c') {format : ModelFormat}
    (hload : Alike (B.InContext B.node) (B.InContext B.node) (Optimizer.load format)
      (Optimizer.load format)) (buffer : ModelBuffer) :
    let run := c.load format buffer
    let run' := c'.load format buffer
    run'.1 = run.1 ∧ run'.2.1 = run.2.1 ∧ Related B stack hasher run.2.2 run'.2.2 := by
  obtain @⟨state, state', context, context', hstate, hcontext⟩ := h
  cases stack with
  | line l =>
    obtain ⟨hout, hbuffer, hleft⟩ := hload buffer (state, context) (state', context')
      ⟨hstate, hcontext⟩
    exact ⟨hout, hbuffer, hleft.1, hleft.2⟩
  | tower t =>
    obtain ⟨hout, hbuffer, hleft⟩ := t.load_alike hload buffer (state, context) (state', context')
      ⟨hstate, hcontext⟩
    exact ⟨hout, hbuffer, hleft.1, hleft.2⟩

end Chain

/-- What related optimizers have in common of their models, related towers have. -/
theorem Tower.Related.fields_eq {t : Tower Float32} {s s' : t.State Float} (h : t.Related B s s')
    {c c' : NarrowContext} (hfields : ∀ {o o'}, B.node o o' →
      Optimizer.fields o' c' = Optimizer.fields o c) : t.fields s' c' = t.fields s c := by
  induction t with
  | bandit l => exact hfields h
  | grounded _ _ _ primary ih =>
    unfold Tower.fields Grounded.fields
    rw [h.counters, ih h.node]

theorem Chain.Related.fields_eq {stack : Stack Float32} {hasher : FeatureHasher}
    {c c' : Chain Float32 Float} (h : Chain.Related B stack hasher c c')
    (hfields : ∀ {o o' : Optimizer Float32 Float} {c c'}, B.node o o' → B.primary.rel c c' →
      o'.fields c' = o.fields c) : c'.fields = c.fields := by
  obtain ⟨hstate, hcontext⟩ := h
  cases stack with
  | line l => exact hfields hstate hcontext
  | tower t => exact Tower.Related.fields_eq hstate fun ho => hfields ho hcontext

end OnlineLearning
