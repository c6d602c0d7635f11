import OnlineLearning.Model.Chain
import OnlineLearning.Proofs.Codec
import OnlineLearning.Proofs.Contents

/-!
# Loads

A load takes the fields that were written, in order. `LoadM.Reads` says which ones it takes and what
it makes of a state; the loads of tables, optimizers and towers read what the fields of such are.
-/

namespace OnlineLearning

open Persistent

variable {σ τ α β : Type}

namespace LoadM

/-- The outcome of a load, the buffer and the state that it leaves. -/
def runOn (load : LoadM σ α) (buffer : ModelBuffer) (state : σ) :
    Except ModelError α × ModelBuffer × σ :=
  (ExceptT.run load).run (buffer, state)

/-- A load takes the fields off the front of a buffer and goes from the state `s` to `s'`. -/
def Reads (load : LoadM σ α) (fields : List Field) (s : σ) (a : α) (s' : σ) : Prop :=
  ∀ (bytes rest : List UInt8) (text : String),
    load.runOn ⟨bytes, fields.flatMap Field.encode ++ rest, text⟩ s =
      (.ok a, ⟨bytes, rest, text⟩, s')

namespace Reads

variable {load : LoadM σ α} {next : α → LoadM σ β} {fields later : List Field} {s s' s'' : σ}
  {a : α} {b : β}

theorem bind (h : Reads load fields s a s') (h' : Reads (next a) later s' b s'') :
    Reads (load >>= next) (fields ++ later) s b s'' := by
  intro bytes rest text
  have hload := h bytes (later.flatMap Field.encode ++ rest) text
  have hnext := h' bytes rest text
  rw [List.flatMap_append, List.append_assoc]
  unfold LoadM.runOn at *
  rw [ExceptT.run_bind, StateT.run_bind, hload]
  exact hnext

theorem bind_cons {field : Field} (h : Reads load [field] s a s')
    (h' : Reads (next a) later s' b s'') : Reads (load >>= next) (field :: later) s b s'' :=
  h.bind h'

theorem bind_nil (h : Reads load [] s a s') (h' : Reads (next a) later s' b s'') :
    Reads (load >>= next) later s b s'' :=
  h.bind h'

theorem of_pure (a : α) (s : σ) : Reads (pure a : LoadM σ α) [] s a s := fun _ _ _ => rfl

theorem of_modifyState (f : σ → σ) (s : σ) : Reads (modifyState f) [] s () (f s) := fun _ _ _ => rfl

theorem get_bind {next : ModelBuffer × σ → LoadM σ β}
    (h : ∀ buffer, Reads (next (buffer, s)) later s b s') : Reads (get >>= next) later s b s' :=
  fun bytes rest text => h ⟨bytes, _, text⟩ bytes rest text

theorem of_take {α : Type} [Persistent α] {name : String} (hname : name.toUTF8.size < 2 ^ 64)
    {x : α} (hx : Decodes x) (s : σ) : Reads (take .binary α name) [Field.of name x] s x s := by
  intro bytes rest text
  have hnext := ModelBuffer.next?_encode hname hx rest
  rw [List.flatMap_singleton]
  generalize (Field.of name x).encode ++ rest = unread at hnext ⊢
  unfold runOn take ModelBuffer.readAs ModelBuffer.read
  dsimp only [ExceptT.run, ExceptT.mk, StateT.run]
  rw [hnext]

theorem of_onPart {part part' : τ} {load : LoadM τ α} (h : Reads load fields part a part')
    (put : τ → σ) (s : σ) : Reads (onPart part put load) fields s a (put part') := by
  intro bytes rest text
  have hload := h bytes rest text
  unfold runOn at hload
  change (fun run => (run.1, run.2.1, put run.2.2)) ((ExceptT.run load).run (_, part)) = _
  rw [hload]

/-- The buffer of a model is read to its end. -/
theorem run_written (h : Reads load fields s a s') :
    let bytes := (ModelBuffer.empty.write .binary fields).bytes
    (ExceptT.run load).run (.ofBytes bytes, s) = (.ok a, ⟨bytes, [], ""⟩, s') := by
  intro bytes
  have hrun := h bytes [] ""
  rwa [List.append_nil] at hrun

end Reads

end LoadM

/-! ## Tables -/

namespace WeightTable

open LoadM

variable {width : Nat}

/-- What a group becomes by what a model holds of the group `g`: with `resume` it becomes that one,
otherwise it takes its parameter. -/
def taken (resume : Bool) (g old : Vector Float32 width) : Vector Float32 width :=
  if resume then g else old.setIfInBounds 0 ((g[0]?).getD 0)

/-- The field of a group that is not zero. -/
def groupField (resume : Bool) (index : UInt64) (g : Vector Float32 width) : Field :=
  if resume then Field.of "weights.group" (index, g.toList)
  else Field.of "weights.param" (index, (g[0]?).getD 0)

theorem reads_loadGroup (resume : Bool) (hwidth : resume = true → width < 2 ^ 64) (index : UInt64)
    (g : Vector Float32 width) (t : WeightTable Float32 width) :
    Reads (loadGroup .binary resume) [groupField resume index g] t ()
      (t.modify index (taken resume g)) := by
  cases resume with
  | false =>
    have htake : Reads (take .binary (UInt64 × Float32) "weights.param")
        [Field.of "weights.param" (index, (g[0]?).getD 0)] t (index, (g[0]?).getD 0) t :=
      .of_take (by decide +kernel) (decodes_pair (decodes_word64 index) (decodes_single _)) t
    exact htake.bind_cons (.of_modifyState _ t)
  | true =>
    have hlength : g.toList.length = width := Vector.length_toList
    have hchannels : Decodes g.toList :=
      decodes_list (hlength.trans_lt (hwidth rfl)) fun x _ => decodes_single x
    have hgroup : (⟨g.toList.toArray, hlength⟩ : Vector Float32 width) = g := by
      ext i hi
      simp
    have htake : Reads (take .binary (UInt64 × List Float32) "weights.group")
        [Field.of "weights.group" (index, g.toList)] t (index, g.toList) t :=
      .of_take (by decide +kernel) (decodes_pair (decodes_word64 index) hchannels) t
    refine htake.bind_cons ?_
    dsimp only
    rw [dif_pos hlength, hgroup]
    exact .of_modifyState _ t

theorem reads_loadGroups (resume : Bool) (hwidth : resume = true → width < 2 ^ 64)
    (entries : List (UInt64 × Vector Float32 width)) (t : WeightTable Float32 width) :
    Reads (loadGroups .binary resume entries.length)
      (entries.map fun e => groupField resume e.1 e.2) t () (t.restore (taken resume) entries) := by
  induction entries generalizing t with
  | nil => exact .of_pure () t
  | cons e rest ih => exact (reads_loadGroup resume hwidth e.1 e.2 t).bind (ih _)

/-- A table reads what is left of it when its groups are cleared and the listed ones are taken. -/
theorem reads_load (resume : Bool) (hwidth : resume = true → width < 2 ^ 64)
    {t : WeightTable Float32 width} (hlength : t.nonZeroGroups.length < 2 ^ 64)
    (t' : WeightTable Float32 width) :
    Reads (load .binary resume) (t.fields resume) t' ()
      (t'.clear.restore (taken resume) t.nonZeroGroups) := by
  have hcount : (UInt64.ofNat t.nonZeroGroups.length).toNat = t.nonZeroGroups.length :=
    UInt64.toNat_ofNat_of_lt' hlength
  have hread (name : String) (hname : name.toUTF8.size < 2 ^ 64) (n : UInt64) :
      Reads (take .binary UInt64 name) [Field.of name n] t'.clear n t'.clear :=
    .of_take hname (decodes_word64 n) _
  have hgroups := reads_loadGroups resume hwidth t.nonZeroGroups t'.clear
  have hcounted : Reads (do
        let count ← take .binary UInt64 "weights.count"
        loadGroups .binary resume count.toNat)
      (Field.of "weights.count" (UInt64.ofNat t.nonZeroGroups.length) ::
        t.nonZeroGroups.map fun e => groupField resume e.1 e.2)
      t'.clear () (t'.clear.restore (taken resume) t.nonZeroGroups) := by
    refine (hread "weights.count" (by decide +kernel) _).bind_cons ?_
    rw [hcount]
    exact hgroups
  unfold load fields
  refine Reads.bind_nil (.of_modifyState clear t') ?_
  cases resume with
  | false => exact hcounted
  | true =>
    have hfound : (UInt64.ofNat width).toNat = width := UInt64.toNat_ofNat_of_lt' (hwidth rfl)
    rw [if_pos rfl, if_pos rfl]
    refine (hread "weights.width" (by decide +kernel) _).bind_cons ?_
    rw [if_neg (not_not_intro hfound)]
    exact hcounted

end WeightTable

/-! ## Optimizers -/

theorem Mode.width_lt (m : Mode) : m.width < 2 ^ 64 := by cases m <;> decide

namespace Optimizer

open LoadM

theorem reads_loadTotals (o : Optimizer Float32 Float) (c : NarrowContext)
    (s : Optimizer Float32 Float × NarrowContext) :
    Reads (loadTotals .binary)
      [Field.of "ftrl.total_weight" o.totalWeight,
        Field.of "ftrl.normalized_sum_norm_x" o.normalizedSumNorm,
        Field.of "ftrl.size" o.size,
        Field.of "shared_data" c.stats] s ()
      ({ s.1 with
          totalWeight := o.totalWeight
          normalizedSumNorm := o.normalizedSumNorm
          size := o.size }, { s.2 with stats := c.stats }) := by
  have hread {α : Type} [Persistent α] {x : α} (hx : Decodes x) (name : String)
      (hname : name.toUTF8.size < 2 ^ 64) (s : Optimizer Float32 Float × NarrowContext) :
      Reads (take .binary α name) [Field.of name x] s x s := .of_take hname hx s
  unfold loadTotals
  refine (hread (decodes_double _) "ftrl.total_weight" (by decide +kernel) s).bind_cons ?_
  refine Reads.bind_nil (.of_modifyState _ s) ?_
  refine (hread (decodes_double _) "ftrl.normalized_sum_norm_x" (by decide +kernel) _).bind_cons ?_
  refine Reads.bind_nil (.of_modifyState _ _) ?_
  refine (hread (decodes_word64 _) "ftrl.size" (by decide +kernel) _).bind_cons ?_
  refine Reads.bind_nil (.of_modifyState _ _) ?_
  refine (hread (decodes_stats _) "shared_data" (by decide +kernel) _).bind_cons ?_
  exact .of_modifyState _ _

variable {o : Optimizer Float32 Float}

/-- An optimizer that differs in table, totals, size and stalls reads the totals and the groups that
are not zero, and computes the average norm anew. The context reads the statistics. -/
theorem reads_load (hmask : o.weights.mask.toNat < 2 ^ 32) {c : NarrowContext}
    (hresume : c.saveResume = true) (t : WeightTable Float32 o.mode.width) (stalls : UInt32)
    (size : UInt64) (totalWeight normalizedSumNorm : Float) (averageSquaredNorm : Float32)
    (c' : NarrowContext) :
    Reads (load .binary) (o.fields c)
      ({ o with weights := t, stalls, size, totalWeight, normalizedSumNorm, averageSquaredNorm },
        c') ()
      (refreshAverage { o with
        weights := t.clear.restore (fun g _ => g) o.weights.nonZeroGroups, stalls },
        { c' with stats := c.stats }) := by
  unfold load fields
  rw [hresume]
  dsimp only
  rw [if_pos rfl, List.cons_append]
  refine Reads.bind_nil (.of_modifyState _ _) ?_
  refine Reads.bind_cons (.of_take (by decide +kernel) (decodes_bool true) _) ?_
  rw [if_pos rfl]
  refine (reads_loadTotals o c _).bind (Reads.get_bind fun _ => ?_)
  have hlength := o.weights.length_nonZeroGroups_le.trans_lt (show _ < 2 ^ 64 by omega)
  have htable := WeightTable.reads_load true (fun _ => o.mode.width_lt) hlength t.clear
  rw [← List.append_nil (o.weights.fields true)]
  exact (Reads.of_onPart htable _ _).bind (.of_modifyState _ _)

/-- Without `saveResume` an optimizer of the same mode reads parameters and nothing else. -/
theorem reads_loadParams {t : WeightTable Float32 o.mode.width} (hmask : t.mask.toNat < 2 ^ 32)
    {c : NarrowContext} (hresume : c.saveResume = false) (stalls : UInt32) (size : UInt64)
    (totalWeight normalizedSumNorm : Float) (averageSquaredNorm : Float32) (c' : NarrowContext) :
    Reads (load .binary)
      (fields { o with
        weights := t, stalls, size, totalWeight, normalizedSumNorm, averageSquaredNorm } c)
      (o, c') ()
      (refreshAverage { o with
        weights := o.weights.clear.restore (WeightTable.taken false) t.nonZeroGroups }, c') := by
  unfold load fields
  rw [hresume]
  dsimp only
  rw [if_neg Bool.false_ne_true, List.cons_append, List.nil_append]
  refine Reads.bind_nil (.of_modifyState _ _) ?_
  refine Reads.bind_cons (.of_take (by decide +kernel) (decodes_bool false) _) ?_
  refine Reads.get_bind fun _ => ?_
  have hlength := t.length_nonZeroGroups_le.trans_lt (show _ < 2 ^ 64 by omega)
  have htable := WeightTable.reads_load false nofun hlength o.weights.clear
  rw [← List.append_nil (t.fields false)]
  exact (Reads.of_onPart htable _ _).bind (.of_modifyState _ _)

end Optimizer

/-! ## Towers -/

open LoadM

theorem Grounded.reads_load (s s' : GroundedState Float32 Float) :
    Reads (Grounded.load .binary) (Grounded.fields s) s' () { s' with counters := s.counters } := by
  have htake : Reads (LoadM.take .binary GroundedCounters "igl.counters") (Grounded.fields s) s'
      s.counters s' := .of_take (by decide +kernel) (Persistent.decodes_counters _) s'
  unfold Grounded.load
  rw [← List.append_nil (Grounded.fields s)]
  exact htake.bind (.of_modifyState _ s')

namespace Tower

/-- What a load makes of the state `s'` of a tower: the optimizer becomes `o`, the counters are those
of the state `s`. -/
def loaded (o : Optimizer Float32 Float) : (t : Tower Float32) → (s s' : t.State Float) →
    t.State Float
  | bandit _, _, s' => (s'.1, o)
  | grounded _ _ _ primary, s, s' =>
    ({ s'.1 with counters := s.1.counters }, primary.loaded o s.2 s'.2)

@[simp] theorem optimizer_loaded (t : Tower Float32) (o : Optimizer Float32 Float)
    (s s' : t.State Float) : t.optimizer (t.loaded o s s') = o := by
  induction t with
  | bandit _ => rfl
  | grounded _ _ _ primary ih => exact ih s.2 s'.2

/-- A tower reads what its optimizer reads, and the counters. -/
theorem reads_load {t : Tower Float32} {s s' : t.State Float} {c c' c'' : NarrowContext}
    {o : Optimizer Float32 Float} (h : Reads (Optimizer.load .binary) ((t.optimizer s).fields c)
      (t.optimizer s', c') () (o, c'')) :
    Reads (t.load .binary) (t.fields s c) (s', c') () (t.loaded o s s', c'') := by
  induction t with
  | bandit _ => exact .get_bind fun _ => .of_onPart h _ _
  | grounded _ _ _ primary ih =>
    have hgrounded := Grounded.reads_load s.1 s'.1
    refine .get_bind fun _ => (Reads.of_onPart hgrounded _ _).bind (.get_bind fun _ => ?_)
    exact .of_onPart (ih h) _ _

end Tower

/-! ## Chains -/

/-- What a load makes of the state `s'` of a stack. -/
def Stack.loaded (o : Optimizer Float32 Float) : (stack : Stack Float32) →
    (s s' : stack.State Float) → stack.State Float
  | .line _, _, _ => o
  | .tower t, s, s' => t.loaded o s s'

@[simp] theorem Chain.optimizer_loaded {stack : Stack Float32} (o : Optimizer Float32 Float)
    (s s' : stack.State Float) (c : NarrowContext) (hasher : FeatureHasher) :
    (⟨stack, stack.loaded o s s', c, hasher⟩ : Chain Float32 Float).optimizer = o := by
  cases stack with
  | line _ => rfl
  | tower t => exact t.optimizer_loaded o s s'

/-- A chain reads the model of another one on the same stack as its optimizer does. -/
theorem Chain.load_save {stack : Stack Float32} {hasher : FeatureHasher}
    {s s' : stack.State Float} {c c' c'' : NarrowContext} {o : Optimizer Float32 Float}
    (h : Reads (Optimizer.load .binary)
      ((⟨stack, s, c, hasher⟩ : Chain Float32 Float).optimizer.fields c)
      ((⟨stack, s', c', hasher⟩ : Chain Float32 Float).optimizer, c') () (o, c'')) :
    let bytes := (Chain.save .binary ⟨stack, s, c, hasher⟩).bytes
    Chain.load .binary (.ofBytes bytes) ⟨stack, s', c', hasher⟩ =
      (.ok (), ⟨bytes, [], ""⟩, ⟨stack, stack.loaded o s s', c'', hasher⟩) := by
  intro bytes
  cases stack with
  | line l =>
    have hreads : Reads (Optimizer.load .binary) (Optimizer.fields s c) (s', c') () (o, c'') := h
    change Chain.load .binary (.ofBytes (ModelBuffer.empty.write .binary (Optimizer.fields s c)).bytes)
      _ = _
    unfold Chain.load
    dsimp only
    rw [hreads.run_written]
    rfl
  | tower t =>
    have hreads : Reads (t.load .binary) (t.fields s c) (s', c') () (t.loaded o s s', c'') :=
      Tower.reads_load h
    change Chain.load .binary (.ofBytes (ModelBuffer.empty.write .binary (t.fields s c)).bytes) _ = _
    unfold Chain.load
    dsimp only
    rw [hreads.run_written]
    rfl

end OnlineLearning
