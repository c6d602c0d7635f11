import Mathlib
import OnlineLearning.Model.Records

/-!
# Reading back what was written

* `Persistent.Decodes`: the bytes of a value are read back to the value, whatever follows them;
* `ModelBuffer.next?_encode`: a field is read back to its value.
-/

namespace OnlineLearning

/-! ## Bytes -/

theorem ofLittleEndian_littleEndian {count n : Nat} (h : n < 256 ^ count) :
    ofLittleEndian (littleEndian count n) = n := by
  induction count generalizing n with
  | zero =>
    rw [Nat.pow_zero] at h
    rw [littleEndian, ofLittleEndian]
    omega
  | succ count ih =>
    have hdiv : n / 256 < 256 ^ count := by
      rw [Nat.pow_succ] at h
      omega
    rw [littleEndian, ofLittleEndian, ih hdiv, UInt8.toNat_ofNat', Nat.mod_mod_of_dvd _ (by decide)]
    omega

theorem toList_loop (bytes : ByteArray) (i : Nat) (front : List UInt8) :
    ByteArray.toList.loop bytes i front = front.reverse ++ bytes.data.toList.drop i := by
  fun_induction ByteArray.toList.loop bytes i front with
  | case1 i front h ih =>
    have hi : i < bytes.data.toList.length := h
    rw [ih, List.drop_eq_getElem_cons hi, List.reverse_cons, List.append_assoc]
    have hget : bytes.get! i = bytes.data.toList[i] := getElem!_pos bytes.data i h
    rw [hget]
    rfl
  | case2 i front h =>
    have hi : bytes.data.toList.length ≤ i := Nat.le_of_not_lt h
    rw [List.drop_eq_nil_of_le hi, List.append_nil]

theorem toList_data (bytes : ByteArray) : bytes.toList = bytes.data.toList :=
  toList_loop bytes 0 []

/-- The bytes of a text are read as the text. -/
theorem decodeUtf8_toUTF8 (s : String) : decodeUtf8 s.toUTF8.toList = .ok s := by
  have hbytes : (⟨s.toUTF8.toList.toArray⟩ : ByteArray) = s.toUTF8 := by
    rw [toList_data, Array.toArray_toList]
  have htext : String.fromUTF8? s.toUTF8 = some s := dif_pos s.isValidUTF8
  unfold decodeUtf8
  rw [hbytes, htext]

namespace Decoder

theorem run_bind_ok {α β : Type} {d : Decoder α} {next : α → Decoder β} {bytes rest : List UInt8}
    {a : α} (h : d.run bytes = .ok (a, rest)) : (d >>= next).run bytes = (next a).run rest := by
  rw [StateT.run_bind, h]
  rfl

theorem run_take {count : Nat} {front : List UInt8} (h : front.length = count)
    (rest : List UInt8) : (take count).run (front ++ rest) = .ok (front, rest) := by
  subst h
  change (if ((front ++ rest).take front.length).length = front.length then _ else _) = _
  rw [List.take_left, if_pos rfl, List.drop_left]

theorem run_number {count n : Nat} (h : n < 256 ^ count) (rest : List UInt8) :
    (number count).run (littleEndian count n ++ rest) = .ok (n, rest) := by
  unfold number
  rw [StateT.run_map, run_take (length_littleEndian count n) rest]
  exact congrArg (fun n => Except.ok (n, rest)) (ofLittleEndian_littleEndian h)

theorem run_block {bytes : List UInt8} (h : bytes.length < 2 ^ 64) (rest : List UInt8) :
    block.run (FieldValue.encodeLength bytes.length ++ bytes ++ rest) = .ok (bytes, rest) := by
  unfold block FieldValue.encodeLength
  rw [List.append_assoc, run_bind_ok (run_number h _), run_take rfl]

end Decoder

/-! ## Values -/

namespace Persistent

/-- The bytes of a value are read back to it, whatever follows them. -/
def Decodes {α : Type} [Persistent α] (x : α) : Prop :=
  ∀ rest, (decoder : Decoder α).run ((toValue x).encode ++ rest) = .ok (x, rest)

theorem Decodes.run_bind {α β : Type} [Persistent α] {x : α} (h : Decodes x) (next : α → Decoder β)
    (rest : List UInt8) :
    (decoder >>= next).run ((toValue x).encode ++ rest) = (next x).run rest :=
  Decoder.run_bind_ok (h rest)

theorem decodes_bool (b : Bool) : Decodes b := by
  intro rest
  cases b <;> rfl

theorem decodes_word64 (n : UInt64) : Decodes n := by
  intro rest
  change (UInt64.ofNat <$> Decoder.number 8).run (littleEndian 8 n.toNat ++ rest) = _
  rw [StateT.run_map, Decoder.run_number n.toNat_lt]
  exact congrArg (fun n => Except.ok (n, rest)) UInt64.ofNat_toNat

theorem decodes_single (x : Float32) : Decodes x := by
  intro rest
  change ((fun bits => Float32.ofBits (UInt32.ofNat bits)) <$> Decoder.number 4).run
    (littleEndian 4 x.toBits.toNat ++ rest) = _
  rw [StateT.run_map, Decoder.run_number x.toBits.toNat_lt]
  refine congrArg (fun x => Except.ok (x, rest)) ?_
  rw [UInt32.ofNat_toNat, Float32.ofBits_toBits]

theorem decodes_double (x : Float) : Decodes x := by
  intro rest
  change ((fun bits => Float.ofBits (UInt64.ofNat bits)) <$> Decoder.number 8).run
    (littleEndian 8 x.toBits.toNat ++ rest) = _
  rw [StateT.run_map, Decoder.run_number x.toBits.toNat_lt]
  refine congrArg (fun x => Except.ok (x, rest)) ?_
  rw [UInt64.ofNat_toNat, Float.ofBits_toBits]

theorem decodes_text {s : String} (h : s.toUTF8.size < 2 ^ 64) : Decodes s := by
  intro rest
  have hlength : s.toUTF8.toList.length = s.toUTF8.size := by
    rw [toList_data]
    rfl
  have hblock := Decoder.run_block (hlength ▸ h) rest
  rw [hlength] at hblock
  change Decoder.text.run (FieldValue.encodeLength s.toUTF8.size ++ s.toUTF8.toList ++ rest) = _
  unfold Decoder.text
  rw [Decoder.run_bind_ok hblock, decodeUtf8_toUTF8]
  rfl

theorem decodes_pair {α β : Type} [Persistent α] [Persistent β] {a : α} {b : β} (ha : Decodes a)
    (hb : Decodes b) : Decodes (a, b) := by
  intro rest
  change (do pure (← (decoder : Decoder α), ← (decoder : Decoder β)) : Decoder (α × β)).run
    ((toValue a).encode ++ ((toValue b).encode ++ []) ++ rest) = _
  rw [List.append_nil, List.append_assoc, ha.run_bind, hb.run_bind]
  rfl

theorem run_many {α : Type} [Persistent α] {xs : List α} (h : ∀ x ∈ xs, Decodes x)
    (rest : List UInt8) :
    (Decoder.many (decoder : Decoder α) xs.length).run
      (FieldValue.encodeAll (xs.map toValue) ++ rest) = .ok (xs, rest) := by
  induction xs with
  | nil => rfl
  | cons x xs ih =>
    have hx := h x List.mem_cons_self
    rw [List.map_cons, FieldValue.encodeAll, List.append_assoc, List.length_cons, Decoder.many,
      hx.run_bind,
      Decoder.run_bind_ok (ih fun y hy => h y (List.mem_cons_of_mem _ hy))]
    rfl

theorem decodes_list {α : Type} [Persistent α] {xs : List α} (hlength : xs.length < 2 ^ 64)
    (h : ∀ x ∈ xs, Decodes x) : Decodes xs := by
  intro rest
  change (do Decoder.many decoder (← Decoder.number 8) : Decoder (List α)).run
    (FieldValue.encodeLength (xs.map toValue).length ++
      FieldValue.encodeAll (xs.map toValue) ++ rest) = _
  rw [List.length_map, List.append_assoc, FieldValue.encodeLength,
    Decoder.run_bind_ok (Decoder.run_number hlength _), run_many h]

theorem decodes_stats (s : Stats Float32 Float) : Decodes s := by
  intro rest
  change (decoder : Decoder (Stats Float32 Float)).run
    (FieldValue.encodeAll s.fieldValues ++ rest) = _
  simp only [Stats.fieldValues, FieldValue.encodeAll, List.append_assoc, List.nil_append]
  unfold Stats.instPersistentFloat32Float
  dsimp only
  rw [(decodes_single _).run_bind, (decodes_single _).run_bind, (decodes_word64 _).run_bind,
    (decodes_word64 _).run_bind, (decodes_double _).run_bind, (decodes_double _).run_bind,
    (decodes_double _).run_bind, (decodes_double _).run_bind, (decodes_double _).run_bind,
    (decodes_double _).run_bind, (decodes_double _).run_bind, (decodes_double _).run_bind,
    (decodes_single _).run_bind, (decodes_word64 _).run_bind]
  rfl

theorem decodes_counters (c : GroundedCounters) : Decodes c := by
  intro rest
  change (do pure {
      decoderExamples := ← (decoder : Decoder UInt64)
      extremeBatches := ← (decoder : Decoder UInt64)
      batchesLearned := ← (decoder : Decoder UInt64) } : Decoder GroundedCounters).run
    (FieldValue.encodeAll [toValue c.decoderExamples, toValue c.extremeBatches,
      toValue c.batchesLearned] ++ rest) = _
  simp only [FieldValue.encodeAll, List.append_assoc, List.nil_append]
  rw [(decodes_word64 _).run_bind, (decodes_word64 _).run_bind, (decodes_word64 _).run_bind]
  rfl

end Persistent

/-! ## Fields -/

namespace ModelBuffer

open Persistent

/-- A field is read back to its value. -/
theorem next?_encode {α : Type} [Persistent α] {name : String} (hname : name.toUTF8.size < 2 ^ 64)
    {x : α} (hx : Decodes x) (rest : List UInt8) :
    next? α name ((Field.of name x).encode ++ rest) = .ok (x, rest) := by
  have hpair : (decoder : Decoder (String × α)).run ((Field.of name x).encode ++ rest) =
      .ok ((name, x), rest) :=
    decodes_pair (decodes_text hname) hx rest
  unfold next?
  rw [hpair]
  exact if_pos rfl

end ModelBuffer

end OnlineLearning
