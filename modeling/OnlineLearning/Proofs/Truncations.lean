import OnlineLearning.Proofs.ModelsAlike

/-!
# Models cut short

A reader that gets more bytes goes on as it did, unless it had run out of bytes. So what is read to
its end cannot be read when bytes are missing at the end of it.

* `Decoder.Extends` and `LoadM.Extends` say this of readers of values and of loads, with the rules by
  which it passes to compositions;
* `Persistent.extends_stats` and its like: all readers of values extend;
* `Chain.outOfBytes_of_shorter`: a chain that takes all bytes of a model takes no shorter part of it.
-/

namespace OnlineLearning

/-! ## Values -/

/-- A reader that gets more bytes leaves these, and is the same otherwise, unless it had run out of
bytes. -/
def Decoder.Extends {α : Type} (d : Decoder α) : Prop :=
  ∀ front back : List UInt8, d.run front = .error .outOfBytes ∨
    d.run (front ++ back) = (d.run front).map fun read => (read.1, read.2 ++ back)

namespace Decoder.Extends

variable {α β : Type} {d : Decoder α}

theorem of_pure (a : α) : Extends (pure a : Decoder α) := fun _ _ => .inr rfl

theorem of_throw (e : CodecError) : Extends (throw e : Decoder α) := fun _ _ => .inr rfl

theorem bind {next : α → Decoder β} (h : d.Extends) (hnext : ∀ a, (next a).Extends) :
    (d >>= next).Extends := by
  intro front back
  rw [StateT.run_bind, StateT.run_bind]
  rcases h front back with hshort | hread
  · rw [hshort]
    exact .inl rfl
  · rw [hread]
    cases d.run front with
    | error e => exact .inr rfl
    | ok read => exact hnext read.1 read.2 back

theorem map (h : d.Extends) (f : α → β) : (f <$> d).Extends := by
  rw [map_eq_pure_bind]
  exact h.bind fun a => .of_pure (f a)

end Decoder.Extends

namespace Decoder

theorem extends_take (count : Nat) : (take count).Extends := by
  intro front back
  change (if (front.take count).length = count then _ else _) = _ ∨
    (if ((front ++ back).take count).length = count then _ else _) =
      Except.map _ (if (front.take count).length = count then _ else _)
  by_cases hcount : count ≤ front.length
  · have htake : (front ++ back).take count = front.take count :=
      List.take_append_of_le_length hcount
    have hlength : (front.take count).length = count := List.length_take_of_le hcount
    rw [htake, if_pos hlength, if_pos hlength, List.drop_append_of_le_length hcount]
    exact .inr rfl
  · have hlength : (front.take count).length ≠ count := by
      rw [List.length_take]
      omega
    rw [if_neg hlength]
    exact .inl rfl

theorem extends_number (count : Nat) : (number count).Extends := (extends_take count).map _

theorem extends_flag : flag.Extends := by
  refine (extends_number 1).bind fun found => ?_
  split
  · exact .of_pure false
  · split
    · exact .of_pure true
    · exact .of_throw _

theorem extends_block : block.Extends := (extends_number 8).bind fun count => extends_take count

theorem extends_text : text.Extends := by
  refine extends_block.bind fun bytes => ?_
  split
  · exact .of_pure _
  · exact .of_throw _

theorem extends_many {α : Type} {item : Decoder α} (h : item.Extends) (count : Nat) :
    (many item count).Extends := by
  induction count with
  | zero => exact .of_pure []
  | succ count ih => exact h.bind fun _ => ih.bind fun _ => .of_pure _

end Decoder

namespace Persistent

open Decoder

theorem extends_word64 : (decoder : Decoder UInt64).Extends := (extends_number 8).map _

theorem extends_single : (decoder : Decoder Float32).Extends := (extends_number 4).map _

theorem extends_double : (decoder : Decoder Float).Extends := (extends_number 8).map _

theorem extends_pair {α β : Type} [Persistent α] [Persistent β]
    (hα : (decoder : Decoder α).Extends) (hβ : (decoder : Decoder β).Extends) :
    (decoder : Decoder (α × β)).Extends :=
  hα.bind fun _ => hβ.bind fun _ => .of_pure _

theorem extends_list {α : Type} [Persistent α] (h : (decoder : Decoder α).Extends) :
    (decoder : Decoder (List α)).Extends :=
  (extends_number 8).bind fun count => extends_many h count

theorem extends_stats : (decoder : Decoder (Stats Float32 Float)).Extends :=
  extends_single.bind fun _ => extends_single.bind fun _ => extends_word64.bind fun _ =>
    extends_word64.bind fun _ => extends_double.bind fun _ => extends_double.bind fun _ =>
      extends_double.bind fun _ => extends_double.bind fun _ => extends_double.bind fun _ =>
        extends_double.bind fun _ => extends_double.bind fun _ => extends_double.bind fun _ =>
          extends_single.bind fun _ => extends_word64.bind fun _ => .of_pure _

theorem extends_counters : (decoder : Decoder GroundedCounters).Extends :=
  extends_word64.bind fun _ => extends_word64.bind fun _ => extends_word64.bind fun _ => .of_pure _

end Persistent

/-! ## Fields -/

/-- The next field is the same when more bytes follow, unless these had run out. -/
theorem ModelBuffer.next?_append {α : Type} [Persistent α] (name : String)
    (h : (Persistent.decoder : Decoder α).Extends) (front back : List UInt8) :
    next? α name front = .error (.codec name .outOfBytes) ∨
      next? α name (front ++ back) = (next? α name front).map fun read =>
        (read.1, read.2 ++ back) := by
  unfold next?
  rcases Persistent.extends_pair Decoder.extends_text h front back with hshort | hread
  · rw [hshort]
    exact .inl rfl
  · rw [hread]
    right
    cases (Persistent.decoder : Decoder (String × α)).run front with
    | error e => rfl
    | ok read =>
      dsimp only [Except.map]
      split
      · rfl
      · rfl

/-! ## Loads -/

variable {σ τ α β : Type}

theorem LoadM.runOn_bind (load : LoadM σ α) (next : α → LoadM σ β) (buffer : ModelBuffer) (s : σ) :
    (load >>= next).runOn buffer s = match load.runOn buffer s with
      | (.ok a, left, s') => (next a).runOn left s'
      | (.error e, left, s') => (.error e, left, s') := by
  unfold runOn
  rw [ExceptT.run_bind, StateT.run_bind]
  generalize (ExceptT.run load).run (buffer, s) = run
  obtain ⟨outcome, left, s'⟩ := run
  cases outcome with
  | error e => rfl
  | ok a => rfl

/-- A load of more bytes leaves these, and is the same otherwise, unless it had run out of bytes. -/
def LoadM.Extends (load : LoadM σ α) : Prop :=
  ∀ (buffer : ModelBuffer) (bytes back : List UInt8) (s : σ),
    let run := load.runOn buffer s
    (∃ field, run.1 = .error (.codec field .outOfBytes)) ∨
      load.runOn { buffer with bytes, unread := buffer.unread ++ back } s =
        (run.1, { run.2.1 with bytes, unread := run.2.1.unread ++ back }, run.2.2)

namespace LoadM.Extends

variable {load : LoadM σ α}

theorem of_pure (a : α) : Extends (pure a : LoadM σ α) := fun _ _ _ _ => .inr rfl

theorem of_throw (e : ModelError) : Extends (throw e : LoadM σ α) := fun _ _ _ _ => .inr rfl

theorem of_modifyState (f : σ → σ) : Extends (modifyState f) := fun _ _ _ _ => .inr rfl

theorem bind {next : α → LoadM σ β} (h : Extends load) (hnext : ∀ a, Extends (next a)) :
    Extends (load >>= next) := by
  intro buffer bytes back s
  have hload := h buffer bytes back s
  dsimp only at hload ⊢
  rw [runOn_bind, runOn_bind]
  generalize load.runOn buffer s = run at hload ⊢
  obtain ⟨outcome, left, s'⟩ := run
  rcases hload with ⟨field, hshort⟩ | hread
  · cases hshort
    exact .inl ⟨field, rfl⟩
  · rw [hread]
    cases outcome with
    | error e => exact .inr rfl
    | ok a => exact hnext a left bytes back s'

/-- Loads that go on from the state, whatever the buffer is. -/
theorem get_bind {next : ModelBuffer × σ → LoadM σ β}
    (hsame : ∀ buffer buffer' s, next (buffer', s) = next (buffer, s))
    (h : ∀ read, Extends (next read)) : Extends (get >>= next) := by
  intro buffer bytes back s
  have hnext := h (buffer, s) buffer bytes back s
  rw [← hsame buffer { buffer with bytes, unread := buffer.unread ++ back } s] at hnext
  rcases hnext with ⟨field, hshort⟩ | hread
  · refine .inl ⟨field, ?_⟩
    rw [hsame] at hshort
    exact hshort
  · refine .inr ?_
    rw [hsame buffer] at hread
    have hget (b : ModelBuffer) :
      (get >>= next : LoadM σ β).runOn b s = (next (b, s)).runOn b s := rfl
    rw [hget, hget, hsame buffer]
    exact hread

theorem of_take (format : ModelFormat) {α : Type} [Persistent α] (name : String)
    (h : (Persistent.decoder : Decoder α).Extends) : Extends (take format α name : LoadM σ α) := by
  intro buffer bytes back s
  cases format with
  | readable => exact .inr rfl
  | binary =>
    unfold runOn take ModelBuffer.readAs ModelBuffer.read
    dsimp only [ExceptT.run, ExceptT.mk, StateT.run]
    rcases ModelBuffer.next?_append name h buffer.unread back with hshort | hread
    · rw [hshort]
      exact .inl ⟨name, rfl⟩
    · rw [hread]
      cases ModelBuffer.next? α name buffer.unread with
      | error e => exact .inr rfl
      | ok read => exact .inr rfl

theorem onPart {part : τ} {load : LoadM τ α} (h : Extends load) (put : τ → σ) :
    Extends (LoadM.onPart part put load) := by
  intro buffer bytes back _
  rcases h buffer bytes back part with hshort | hread
  · exact .inl hshort
  · refine .inr ?_
    have hpart (b : ModelBuffer) (s : σ) : (LoadM.onPart part put load).runOn b s =
      (fun run => (run.1, run.2.1, put run.2.2)) (load.runOn b part) := rfl
    rw [hpart, hpart, hread]

/-- What is read to its end cannot be read when bytes are missing. -/
theorem outOfBytes_of_shorter (h : Extends load) {bytes front : List UInt8} {s : σ}
    (hread : (load.runOn (.ofBytes bytes) s).2.1.unread = []) (hfront : front <+: bytes)
    (hne : front ≠ bytes) :
    ∃ field, (load.runOn (.ofBytes front) s).1 = .error (.codec field .outOfBytes) := by
  obtain ⟨back, rfl⟩ := hfront
  rcases h (.ofBytes front) (front ++ back) back s with hshort | hmore
  · exact hshort
  · have hunread := congrArg (fun run => run.2.1.unread) hmore
    have hback : back = [] := (List.append_eq_nil_iff.mp (hunread.symm.trans hread)).2
    rw [hback, List.append_nil] at hne
    exact absurd rfl hne

end LoadM.Extends

open LoadM (Extends)

namespace WeightTable

variable {width : Nat}

theorem extends_loadGroup (format : ModelFormat) (resume : Bool) :
    Extends (loadGroup format resume : LoadM (WeightTable Float32 width) Unit) := by
  cases resume with
  | true =>
    refine .bind (.of_take format _ (Persistent.extends_pair Persistent.extends_word64
      (Persistent.extends_list Persistent.extends_single))) fun field => ?_
    dsimp only
    split
    · exact .of_modifyState _
    · exact .of_throw _
  | false =>
    refine .bind (.of_take format _ (Persistent.extends_pair Persistent.extends_word64
      Persistent.extends_single)) fun field => ?_
    exact .of_modifyState _

theorem extends_loadGroups (format : ModelFormat) (resume : Bool) (count : Nat) :
    Extends (loadGroups format resume count : LoadM (WeightTable Float32 width) Unit) := by
  induction count with
  | zero => exact .of_pure ()
  | succ count ih => exact .bind (extends_loadGroup format resume) fun _ => ih

theorem extends_load (format : ModelFormat) (resume : Bool) :
    Extends (load format resume : LoadM (WeightTable Float32 width) Unit) := by
  have hword (name : String) : Extends (LoadM.take format UInt64 name :
      LoadM (WeightTable Float32 width) UInt64) := .of_take format name Persistent.extends_word64
  have hcounted : Extends (LoadM.take format UInt64 "weights.count" >>= fun count =>
      (loadGroups format resume count.toNat : LoadM (WeightTable Float32 width) Unit)) :=
    .bind (hword _) fun _ => extends_loadGroups format resume _
  refine .bind (.of_modifyState clear) fun _ => ?_
  cases resume with
  | false => exact hcounted
  | true =>
    refine .bind (hword "weights.width") fun found => ?_
    dsimp only
    split
    · exact .bind (.of_throw _) fun _ => hcounted
    · exact hcounted

end WeightTable

namespace Optimizer

theorem extends_loadTotals (format : ModelFormat) : Extends (loadTotals format) := by
  have hdouble (name : String) : Extends (LoadM.take format Float name :
      LoadM (Optimizer Float32 Float × NarrowContext) Float) :=
    .of_take format name Persistent.extends_double
  refine .bind (hdouble _) fun _ => .bind (.of_modifyState _) fun _ => ?_
  refine .bind (hdouble _) fun _ => .bind (.of_modifyState _) fun _ => ?_
  refine .bind (.of_take format _ Persistent.extends_word64) fun _ =>
    .bind (.of_modifyState _) fun _ => ?_
  exact .bind (.of_take format _ Persistent.extends_stats) fun _ => .of_modifyState _

theorem extends_load (format : ModelFormat) : Extends (load format) := by
  have htable (resume : Bool) : Extends (loadTable format resume) :=
    .get_bind (fun _ _ _ => rfl) fun _ =>
      .bind (.onPart (WeightTable.extends_load format resume) _) fun _ => .of_modifyState _
  refine .bind (.of_modifyState _) fun _ => ?_
  refine .bind (.of_take format _ Decoder.extends_flag) fun resume => ?_
  cases resume with
  | true => exact .bind (extends_loadTotals format) fun _ => htable true
  | false => exact htable false

end Optimizer

theorem Grounded.extends_load (format : ModelFormat) : Extends (Grounded.load format) :=
  .bind (.of_take format _ Persistent.extends_counters) fun _ => .of_modifyState _

theorem Tower.extends_load (format : ModelFormat) (t : Tower Float32) : Extends (t.load format) := by
  induction t with
  | bandit _ =>
    exact .get_bind (fun _ _ _ => rfl) fun _ => .onPart (Optimizer.extends_load format) _
  | grounded _ _ _ primary ih =>
    refine .get_bind (fun _ _ _ => rfl) fun _ => ?_
    refine .bind (.onPart (Grounded.extends_load format) _) fun _ => ?_
    exact .get_bind (fun _ _ _ => rfl) fun _ => .onPart ih _

/-! ## Chains -/

/-- A stack as a tower: a line as that of a bandit node. -/
def Stack.asTower {R : Type} : Stack R → Tower R
  | line l => .bandit l
  | tower t => t

namespace Chain

/-- The state of the tower that a stack is, or could be. -/
def towerState : (c : Chain Float32 Float) → c.stack.asTower.State Float
  | ⟨.line _, o, _, _⟩ => (Example.blank, o)
  | ⟨.tower _, state, _, _⟩ => state

/-- A bandit node has no part in the fields of a model. -/
theorem fields_eq_tower (c : Chain Float32 Float) :
    c.fields = c.stack.asTower.fields c.towerState c.context := by
  obtain ⟨l | t, state, context, hasher⟩ := c
  · rfl
  · rfl

theorem optimizer_eq_tower (c : Chain Float32 Float) :
    c.optimizer = c.stack.asTower.optimizer c.towerState := by
  obtain ⟨l | t, state, context, hasher⟩ := c
  · rfl
  · rfl

/-- A bandit node has no part in a load. -/
theorem load_eq_tower (format : ModelFormat) (buffer : ModelBuffer) (c : Chain Float32 Float) :
    let run := (c.stack.asTower.load format).runOn buffer (c.towerState, c.context)
    (c.load format buffer).1 = run.1 ∧ (c.load format buffer).2.1 = run.2.1 := by
  obtain ⟨l | t, state, context, hasher⟩ := c
  · exact ⟨rfl, rfl⟩
  · exact ⟨rfl, rfl⟩

/-- A chain that takes all bytes of a model runs out of bytes in any part of it that lacks its end. -/
theorem outOfBytes_of_shorter {format : ModelFormat} {c : Chain Float32 Float}
    {bytes front : List UInt8} (hread : (c.load format (.ofBytes bytes)).2.1.unread = [])
    (hfront : front <+: bytes) (hne : front ≠ bytes) :
    ∃ field, (c.load format (.ofBytes front)).1 = .error (.codec field .outOfBytes) := by
  rw [(c.load_eq_tower format (.ofBytes bytes)).2] at hread
  rw [(c.load_eq_tower format (.ofBytes front)).1]
  exact (c.stack.asTower.extends_load format).outOfBytes_of_shorter hread hfront hne

end Chain

end OnlineLearning
