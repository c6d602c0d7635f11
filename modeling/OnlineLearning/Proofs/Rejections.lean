import OnlineLearning.Proofs.Configured
import OnlineLearning.Proofs.Truncations

/-!
# Models that are rejected

A model is read field by field, and a field is found to be another one after its value was read as
one of the wanted type. Whatever comes of that, a model is rejected if it is cut short, if it comes
from a stack with a grounded node and there is none here or the other way round, and, when it holds
all channels, if it comes from an optimizer with another number of channels.

* `LoadM.Refuses` are the loads that fail on certain first fields, whatever follows these;
* `Tower.refuses_count` and `Tower.refuses_width`: towers refuse the fields of towers with another
  number of grounded nodes or of channels;
* `Workspace.model_rejected`: no workspace takes the model of a reached one in these cases.
-/

namespace OnlineLearning

/-! ## Foreign fields -/

/-- A field of another name is not read, whether its value can be read as one of the wanted type or
not. -/
theorem ModelBuffer.next?_foreign {α : Type} [Persistent α] {name found : String}
    (hfound : found.toUTF8.size < 2 ^ 64) (hne : found ≠ name) (value : FieldValue)
    (rest : List UInt8) : ∃ e, next? α name (Field.encode (found, value) ++ rest) = .error e := by
  have hfield : (Persistent.decoder : Decoder (String × α)).run
      (Field.encode (found, value) ++ rest) =
        (do pure (found, ← (Persistent.decoder : Decoder α)) : Decoder (String × α)).run
          (value.encode ++ [] ++ rest) := by
    have hbytes : Field.encode (found, value) ++ rest =
        (Persistent.toValue found).encode ++ (value.encode ++ [] ++ rest) := List.append_assoc _ _ _
    rw [hbytes]
    exact (Persistent.decodes_text hfound).run_bind _ _
  unfold next?
  rw [hfield, StateT.run_bind]
  cases (Persistent.decoder : Decoder α).run (value.encode ++ [] ++ rest) with
  | error e => exact ⟨_, rfl⟩
  | ok read => exact ⟨_, if_neg hne⟩

variable {σ τ α β : Type}

/-- A load that fails on all that begins with these fields. -/
def LoadM.Refuses (load : LoadM σ α) (fields : List Field) (s : σ) : Prop :=
  ∀ (bytes rest : List UInt8) (text : String), ∃ e,
    (load.runOn ⟨bytes, fields.flatMap Field.encode ++ rest, text⟩ s).1 = .error e

open LoadM (Reads Refuses)

namespace LoadM.Refuses

variable {load : LoadM σ α} {next : α → LoadM σ β} {fields later : List Field} {s s' : σ} {a : α}

theorem of_throw (e : ModelError) (fields : List Field) (s : σ) :
    Refuses (throw e : LoadM σ α) fields s := fun _ _ _ => ⟨e, rfl⟩

theorem of_take {α : Type} [Persistent α] {name found : String}
    (hfound : found.toUTF8.size < 2 ^ 64) (hne : found ≠ name) (value : FieldValue)
    (fields : List Field) (s : σ) :
    Refuses (take .binary α name) ((found, value) :: fields) s := by
  intro bytes rest text
  obtain ⟨e, hnext⟩ := ModelBuffer.next?_foreign (α := α) hfound hne value
    (fields.flatMap Field.encode ++ rest)
  refine ⟨e, ?_⟩
  rw [List.flatMap_cons, List.append_assoc]
  unfold runOn take ModelBuffer.readAs ModelBuffer.read
  dsimp only [ExceptT.run, ExceptT.mk, StateT.run]
  rw [hnext]

theorem first (h : Refuses load fields s) : Refuses (load >>= next) fields s := by
  intro bytes rest text
  obtain ⟨e, herror⟩ := h bytes rest text
  refine ⟨e, ?_⟩
  rw [runOn_bind]
  generalize load.runOn ⟨bytes, fields.flatMap Field.encode ++ rest, text⟩ s = run at herror ⊢
  obtain ⟨outcome, left, s'⟩ := run
  cases herror
  rfl

/-- A load that refuses what is left when other fields have been read. -/
theorem bind (h : Reads load fields s a s') (hnext : Refuses (next a) later s') :
    Refuses (load >>= next) (fields ++ later) s := by
  intro bytes rest text
  obtain ⟨e, herror⟩ := hnext bytes rest text
  refine ⟨e, ?_⟩
  rw [runOn_bind, List.flatMap_append, List.append_assoc, h]
  exact herror

theorem bind_cons {field : Field} (h : Reads load [field] s a s')
    (hnext : Refuses (next a) later s') : Refuses (load >>= next) (field :: later) s :=
  bind h hnext

theorem bind_nil (h : Reads load [] s a s') (hnext : Refuses (next a) later s') :
    Refuses (load >>= next) later s :=
  bind h hnext

theorem get_bind {next : ModelBuffer × σ → LoadM σ β}
    (h : ∀ buffer, Refuses (next (buffer, s)) fields s) : Refuses (get >>= next) fields s :=
  fun bytes rest text => h _ bytes rest text

theorem onPart {part : τ} {load : LoadM τ α} (h : Refuses load fields part) (put : τ → σ) (s : σ) :
    Refuses (LoadM.onPart part put load) fields s := h

end LoadM.Refuses

/-! ## Tables and optimizers -/

/-- A table takes no groups of another width. -/
theorem WeightTable.refuses_width {width width' : Nat} (hwidth : width < 2 ^ 64)
    (hne : width ≠ width') (fields : List Field) (t : WeightTable Float32 width') :
    Refuses (load .binary true) (Field.of "weights.width" (UInt64.ofNat width) :: fields) t := by
  have hread : Reads (LoadM.take .binary UInt64 "weights.width")
      [Field.of "weights.width" (UInt64.ofNat width)] t.clear (UInt64.ofNat width) t.clear :=
    .of_take (by decide +kernel) (Persistent.decodes_word64 _) _
  have hfound : (UInt64.ofNat width).toNat ≠ width' := by
    rwa [UInt64.toNat_ofNat_of_lt' hwidth]
  refine .bind_nil (.of_modifyState clear t) ?_
  refine .bind_cons hread ?_
  dsimp only
  rw [if_pos hfound]
  exact .first (.of_throw _ _ _)

theorem Mode.width_injective : Function.Injective Mode.width := by
  intro m m' h
  cases m <;> cases m' <;> first | rfl | cases h

namespace Optimizer

/-- The model of an optimizer begins with a field of its own. -/
theorem refuses_foreign {found : String} (hfound : found.toUTF8.size < 2 ^ 64)
    (hne : found ≠ "resume") (value : FieldValue) (fields : List Field)
    (s : Optimizer Float32 Float × NarrowContext) :
    Refuses (load .binary) ((found, value) :: fields) s :=
  .bind_nil (.of_modifyState _ s) (.first (.of_take hfound hne value fields _))

/-- An optimizer does not take all channels of an optimizer in another mode. -/
theorem refuses_width {o o' : Optimizer Float32 Float} (hmode : o'.mode ≠ o.mode)
    {c : NarrowContext} (hresume : c.saveResume = true) (c' : NarrowContext) :
    Refuses (load .binary) (o.fields c) (o', c') := by
  have hne : o.mode.width ≠ o'.mode.width := fun h => hmode (Mode.width_injective h.symm)
  unfold load fields
  rw [hresume]
  dsimp only
  rw [if_pos rfl, List.cons_append]
  refine .bind_nil (.of_modifyState _ _) ?_
  refine .bind_cons (.of_take (by decide +kernel) (Persistent.decodes_bool true) _) ?_
  rw [if_pos rfl]
  refine .bind (reads_loadTotals o c _) (.get_bind fun _ => .first (.onPart ?_ _ _))
  exact WeightTable.refuses_width o.mode.width_lt hne _ _

end Optimizer

theorem Grounded.refuses_foreign {found : String} (hfound : found.toUTF8.size < 2 ^ 64)
    (hne : found ≠ "igl.counters") (value : FieldValue) (fields : List Field)
    (s : GroundedState Float32 Float) :
    Refuses (Grounded.load .binary) ((found, value) :: fields) s :=
  .first (.of_take hfound hne value fields s)

/-! ## Towers -/

namespace Tower

/-- The number of grounded nodes of a tower. -/
def groundedCount {R : Type} : Tower R → Nat
  | bandit _ => 0
  | grounded _ _ _ primary => primary.groundedCount + 1

/-- Fields of a tower with grounded nodes begin with counters, those of others do not. Either way
the other one refuses them. -/
theorem refuses_count {t t' : Tower Float32} (h : t'.groundedCount ≠ t.groundedCount)
    (s : t.State Float) (s' : t'.State Float) (c c' : NarrowContext) :
    Refuses (t'.load .binary) (t.fields s c) (s', c') := by
  induction t generalizing t' with
  | bandit _ =>
    cases t' with
    | bandit _ => exact absurd rfl h
    | grounded _ _ _ _ =>
      refine .get_bind fun _ => .first (.onPart ?_ _ _)
      exact Grounded.refuses_foreign (by decide +kernel) (by decide) _ _ _
  | grounded _ _ _ primary ih =>
    cases t' with
    | bandit _ =>
      refine .get_bind fun _ => .onPart ?_ _ _
      exact Optimizer.refuses_foreign (by decide +kernel) (by decide) _ _ _
    | grounded _ _ _ primary' =>
      have hprimary : primary'.groundedCount ≠ primary.groundedCount := fun heq =>
        h (congrArg (· + 1) heq)
      have hcounters := Grounded.reads_load s.1 s'.1
      refine .get_bind fun _ => .bind (.of_onPart hcounters _ _) (.get_bind fun _ => ?_)
      exact .onPart (ih hprimary s.2 s'.2) _ _

/-- Fields of a tower that hold all channels are refused where there are others. -/
theorem refuses_width {t t' : Tower Float32} {s : t.State Float} {s' : t'.State Float}
    (hmode : (t'.optimizer s').mode ≠ (t.optimizer s).mode) {c : NarrowContext}
    (hresume : c.saveResume = true) (c' : NarrowContext) :
    Refuses (t'.load .binary) (t.fields s c) (s', c') := by
  by_cases hcount : t'.groundedCount = t.groundedCount
  · induction t generalizing t' with
    | bandit _ =>
      cases t' with
      | bandit _ => exact .get_bind fun _ => .onPart (Optimizer.refuses_width hmode hresume _) _ _
      | grounded _ _ _ _ => cases hcount
    | grounded _ _ _ primary ih =>
      cases t' with
      | bandit _ => cases hcount
      | grounded _ _ _ primary' =>
        have hprimary : primary'.groundedCount = primary.groundedCount := Nat.succ_injective hcount
        have hmode' : (primary'.optimizer s'.2).mode ≠ (primary.optimizer s.2).mode := hmode
        have hcounters := Grounded.reads_load s.1 s'.1
        refine .get_bind fun _ => .bind (.of_onPart hcounters _ _) (.get_bind fun _ => ?_)
        exact .onPart (ih hmode' hprimary) _ _
  · exact refuses_count hcount s s' c c'

end Tower

/-! ## Chains -/

namespace Chain

theorem isSome_grounded? (c : Chain Float32 Float) :
    c.grounded?.isSome = decide (0 < c.stack.asTower.groundedCount) := by
  obtain ⟨l | t, state, context, hasher⟩ := c
  · rfl
  · cases t with
    | bandit _ => rfl
    | grounded _ _ _ primary => exact (decide_eq_true (Nat.succ_pos _)).symm

/-- A model has a first field. -/
theorem save_ne_nil (c : Chain Float32 Float) : (c.save .binary).bytes ≠ [] := by
  have hfield (f : Field) (rest : List UInt8) : f.encode ++ rest ≠ [] := List.cons_ne_nil _ _
  change c.fields.flatMap Field.encode ≠ []
  obtain ⟨l | t, state, context, hasher⟩ := c
  · exact hfield _ _
  · cases t with
    | bandit _ => exact hfield _ _
    | grounded _ _ _ _ => exact hfield _ _

theorem load_refuses {c c' : Chain Float32 Float}
    (h : Refuses (c'.stack.asTower.load .binary) (c.stack.asTower.fields c.towerState c.context)
      (c'.towerState, c'.context)) :
    ∃ e, (c'.load .binary (.ofBytes (c.save .binary).bytes)).1 = .error e := by
  have hbytes : (c.save .binary).bytes = c.fields.flatMap Field.encode := rfl
  obtain ⟨e, herror⟩ := h (c.save .binary).bytes [] ""
  refine ⟨e, ?_⟩
  rw [← fields_eq_tower, List.append_nil, ← hbytes] at herror
  rw [(c'.load_eq_tower .binary _).1]
  exact herror

end Chain

/-! ## Workspaces -/

namespace Config

/-- The default configuration with another mode of the optimizer. -/
def defaultProximal : Config Float32 :=
  { (default : Config Float32) with
    optimizer := { (default : Config Float32).optimizer with ftrl := true } }

def proximalWorkspace : Workspace Float32 Float :=
  (Workspace.new defaultProximal : Except _ (Workspace Float32 Float)).toOption.get
    (by decide +kernel)

end Config

namespace Workspace

variable {c : Config Float32} {w₀ : Workspace Float32 Float}

theorem mode_reached (hnew : Workspace.new c = .ok w₀) (events : List Event) :
    (w₀.echoes events).2.chain.optimizer.mode = w₀.chain.optimizer.mode := by
  obtain ⟨p, hasher, -, hreached⟩ := configured hnew
  exact (hreached events).2.optimizer.holds.mode.trans (hreached []).2.optimizer.holds.mode.symm

/-- The model of a workspace that has gone through anything is rejected
* if its end is missing, by all workspaces of the same configuration;
* by all workspaces that have a grounded node while this one has none, or the other way round;
* if it holds all channels, by all workspaces whose optimizer works in another mode. -/
theorem model_rejected (hnew : Workspace.new c = .ok w₀) (events : List Event) :
    let w := (w₀.echoes events).2
    (∀ (events' : List Event) (front : List UInt8), front <+: w.model → front ≠ w.model →
      ∃ field, ((w₀.echoes events').2.load .binary front).1 = .error (.codec field .outOfBytes)) ∧
    (∀ w' : Workspace Float32 Float, w'.chain.grounded?.isSome ≠ w.chain.grounded?.isSome →
      ∃ e, (w'.load .binary w.model).1 = .error e) ∧
    (c.run.saveResume = true → ∀ w' : Workspace Float32 Float,
      w'.chain.optimizer.mode ≠ w.chain.optimizer.mode →
        ∃ e, (w'.load .binary w.model).1 = .error e) := by
  intro w
  obtain ⟨p, hasher, hcontext, hreached⟩ := configured hnew
  have hw := (hreached events).2
  refine ⟨fun events' front hfront hne => ?_, fun w' hgrounded => ?_, fun hresume w' hmode => ?_⟩
  · obtain ⟨left, hload, -⟩ := hw.load_saved p.mask_lt
      (fun _ _ _ hc => hc.withStats _) (hreached events').2
    exact Chain.outOfBytes_of_shorter (congrArg (fun run => run.2.1.unread) hload) hfront hne
  · refine Chain.load_refuses (Tower.refuses_count (fun hcount => hgrounded ?_) _ _ _ _)
    rw [Chain.isSome_grounded?, Chain.isSome_grounded?, hcount]
  · have hsaves : w.chain.context.saveResume = true :=
      hw.context.2.saveResume.trans
        ((Config.saveResume_of_initialContext p.context_eq).trans hresume)
    rw [Chain.optimizer_eq_tower, Chain.optimizer_eq_tower] at hmode
    exact Chain.load_refuses (Tower.refuses_width hmode hsaves _)

/-- A workspace with a bandit node and one with a grounded node, which have learned from a batch and
closed a pass; the model of the first one holds the group of a feature. Without its last byte this
model is not taken back. None of the two takes the model of the other, and a workspace that has no
grounded node either does not take the first model, since its optimizer works in another mode. -/
theorem model_rejected_default :
    let events (w : Workspace Float32 Float) : List Event :=
      [.call (.learnBatch (clickBatch w.chain.hasher)), .endPass]
    let w := (Config.banditWorkspace.echoes (events Config.banditWorkspace)).2
    let g := (Config.defaultWorkspace.echoes (events Config.defaultWorkspace)).2
    let w' := Config.proximalWorkspace
    (Workspace.new Config.defaultBandit = .ok Config.banditWorkspace ∧
      Workspace.new Config.defaultGrounded = .ok Config.defaultWorkspace ∧
      w.chain.optimizer.weights.nonZeroIndices = [w.chain.hasher.hash "a" "x"] ∧
      w.model.dropLast <+: w.model ∧ w.model.dropLast ≠ w.model ∧
      g.chain.grounded?.isSome ≠ w.chain.grounded?.isSome ∧
      Config.defaultBandit.run.saveResume = true ∧
      w'.chain.grounded?.isSome = w.chain.grounded?.isSome ∧
      w'.chain.optimizer.mode ≠ w.chain.optimizer.mode) ∧
    (∃ field, (w.load .binary w.model.dropLast).1 = .error (.codec field .outOfBytes)) ∧
    (∃ e, (g.load .binary w.model).1 = .error e) ∧
    (∃ e, (w.load .binary g.model).1 = .error e) ∧
    ∃ e, (w'.load .binary w.model).1 = .error e := by
  intro events w g w'
  have hlast : w.model.dropLast ≠ w.model := fun h => by
    have hlength := congrArg List.length h
    have hpos := List.length_pos_of_ne_nil w.chain.save_ne_nil
    rw [List.length_dropLast] at hlength
    unfold model at hlength
    omega
  have hgrounded : g.chain.grounded?.isSome ≠ w.chain.grounded?.isSome := by
    have hstack : g.chain.stack = Config.defaultWorkspace.chain.stack :=
      stack_reached Config.new_defaultGrounded _
    have hstack' : w.chain.stack = Config.banditWorkspace.chain.stack :=
      stack_reached Config.new_defaultBandit _
    rw [Chain.isSome_grounded?, Chain.isSome_grounded?, hstack, hstack']
    decide +kernel
  have hmode : w'.chain.optimizer.mode ≠ w.chain.optimizer.mode := by
    have hmode : w.chain.optimizer.mode = Config.banditWorkspace.chain.optimizer.mode :=
      mode_reached Config.new_defaultBandit _
    rw [hmode]
    decide +kernel
  obtain ⟨hshort, hforeign, hchannels⟩ := model_rejected Config.new_defaultBandit (events _)
  obtain ⟨-, hforeign', -⟩ := model_rejected Config.new_defaultGrounded (events _)
  exact ⟨⟨Config.new_defaultBandit, Config.new_defaultGrounded, by decide +kernel,
      List.dropLast_prefix _, hlast, hgrounded, rfl, by decide +kernel, hmode⟩,
    hshort _ _ (List.dropLast_prefix _) hlast, hforeign g hgrounded,
    hforeign' w hgrounded.symm, hchannels rfl w' hmode⟩

end Workspace

end OnlineLearning
