import OnlineLearning.Proofs.DisjointLessons
import OnlineLearning.Proofs.Parameters
import OnlineLearning.Proofs.Rows

/-!
# Records of parameters

Without resume a model holds a record for every group that is not zero: its index and its parameter.
A group may have a parameter of zero and still be recorded, for what its other channels hold; no
load finds it again. So a model loses nothing but these records on the way through a table.

* `WeightTable.records` is what is recorded, `WeightTable.Lists` says for which indices;
* `WeightTable.reads_params`: a load leaves the recorded parameters and nothing else;
* `WeightTable.image_again_iff`: the table that was loaded is saved as the same model exactly if no
  group is recorded for its other channels alone;
* `WeightTable.load_image`: every table of the size takes over the parameters of another one.
-/

namespace OnlineLearning

open Persistent
open LoadM (Reads)

namespace WeightTable

variable {width : Nat} {t t' : WeightTable Float32 width} {bits : Nat}

/-! ## What is recorded -/

/-- The records of a model without resume: the parameters of the groups that are not zero. -/
def records (t : WeightTable Float32 width) : List (UInt64 × Float32) :=
  t.nonZeroGroups.map fun e => (e.1, (e.2[0]?).getD 0)

/-- The bytes of a model without resume. -/
def image (t : WeightTable Float32 width) : List UInt8 :=
  (ModelBuffer.empty.write .binary (t.fields false)).bytes

/-- The records are in ascending order: one with the parameter for each listed index of the table,
and none for another one. -/
structure Lists (t : WeightTable Float32 width) (listed : UInt64 → Prop)
    (records : List (UInt64 × Float32)) : Prop where
  ascending : records.Pairwise fun a b => a.1 < b.1
  mem_iff : ∀ k x, (k, x) ∈ records ↔ k.toNat < t.rows ∧ listed k ∧ x = t.param k

/-- No group is zero in its parameter but not in another channel. -/
def ShownByParams (t : WeightTable Float32 width) : Prop :=
  ∀ i, isNonZero (t.group i) = true → (t.param i != 0) = true

/-- Without resume a model holds the number of the records and the records. -/
theorem fields_false (t : WeightTable Float32 width) :
    t.fields false = Field.of "weights.count" (UInt64.ofNat t.records.length) ::
      t.records.map (Field.of "weights.param") := by
  unfold fields records
  rw [List.length_map, List.map_map]
  rfl

theorem length_records (t : WeightTable Float32 width) :
    t.records.length = t.nonZeroGroups.length := List.length_map _

theorem mem_records {k : UInt64} {x : Float32} :
    (k, x) ∈ t.records ↔ k &&& t.mask = k ∧ isNonZero (t.group k) = true ∧ x = t.param k := by
  unfold records
  rw [List.mem_map]
  constructor
  · rintro ⟨⟨k', g⟩, hmem, heq⟩
    cases heq
    obtain ⟨hk, rfl, hg⟩ := (mem_nonZeroGroups (isNonZero_zeroGroup _)).mp hmem
    exact ⟨hk, hg, rfl⟩
  · rintro ⟨hk, hg, rfl⟩
    exact ⟨(k, t.group k), (mem_nonZeroGroups (isNonZero_zeroGroup _)).mpr ⟨hk, rfl, hg⟩, rfl⟩

theorem ordered_records (t : WeightTable Float32 width) :
    t.records.Pairwise fun a b => a.1 < b.1 :=
  List.pairwise_map.mpr (ordered_nonZeroGroups t)

/-- The groups that are not zero are recorded. -/
theorem lists_nonZero (hmask : t.mask = indexMask bits) :
    t.Lists (fun k => isNonZero (t.group k) = true) t.records := by
  refine ⟨ordered_records t, fun k x => ?_⟩
  rw [mem_records, rows, hmask, and_indexMask]

theorem isNonZero_of_param {i : UInt64} (h : (t.param i != 0) = true) :
    isNonZero (t.group i) = true := by
  unfold param at h
  by_cases hwidth : 0 < width
  · rw [Vector.getElem?_eq_getElem hwidth] at h
    exact Vector.any_eq_true.mpr ⟨0, hwidth, h⟩
  · rw [Vector.getElem?_eq_none (Nat.le_of_not_lt hwidth)] at h
    rw [Option.getD_none, zero_bne_zero] at h
    cases h

theorem shownByParams_iff : t.ShownByParams ↔ ∀ r ∈ t.records, (r.2 != 0) = true := by
  constructor
  · rintro h ⟨k, x⟩ hmem
    obtain ⟨-, hgroup, rfl⟩ := mem_records.mp hmem
    exact h k hgroup
  · intro h i hi
    have hlisted := mem_nonZeroGroups_of_isNonZero (isNonZero_zeroGroup _) hi
    have hmem : (i &&& t.mask, t.param i) ∈ t.records := List.mem_map.mpr ⟨_, hlisted, rfl⟩
    have hparam := h _ hmem
    exact hparam

instance : Decidable t.ShownByParams := decidable_of_iff _ shownByParams_iff.symm

/-- The indices of the parameters that are not zero are the recorded ones exactly if no group is
recorded for its other channels alone. -/
theorem lists_params_iff (hmask : t.mask = indexMask bits) :
    t.Lists (fun k => (t.param k != 0) = true) t.records ↔ t.ShownByParams := by
  constructor
  · intro h
    refine shownByParams_iff.mpr ?_
    rintro ⟨k, x⟩ hmem
    obtain ⟨-, hparam, rfl⟩ := (h.mem_iff k x).mp hmem
    exact hparam
  · intro h
    refine ⟨ordered_records t, fun k x => ?_⟩
    rw [(lists_nonZero hmask).mem_iff]
    exact and_congr_right fun _ => and_congr_left fun _ => ⟨h k, isNonZero_of_param⟩

theorem length_records_lt (hbits : bits < 64) (hmask : t.mask = indexMask bits) :
    t.records.length < 2 ^ 64 := by
  have hlength := t.length_nonZeroGroups_le
  have hpow : 2 ^ bits < 2 ^ 64 := Nat.pow_lt_pow_right (by decide) hbits
  rw [hmask, toNat_indexMask, min_eq_left hbits.le, Nat.sub_add_cancel (Nat.two_pow_pos _)]
    at hlength
  rw [length_records]
  exact hlength.trans_lt hpow

/-! ## What is read -/

/-- What a load without resume leaves of a table. -/
def withParams (t t' : WeightTable Float32 width) : WeightTable Float32 width :=
  t'.clear.restore (taken false) t.nonZeroGroups

theorem reads_params (hbits : bits < 64) (hmask : t.mask = indexMask bits)
    (t' : WeightTable Float32 width) :
    Reads (load .binary false) (t.fields false) t' () (t.withParams t') :=
  reads_load false nofun ((length_records t).symm.trans_lt (length_records_lt hbits hmask)) t'

@[simp] theorem mask_withParams (t t' : WeightTable Float32 width) :
    (t.withParams t').mask = t'.mask := mask_restore _ _

theorem group_withParams (hmask : t'.mask = t.mask) (i : UInt64) :
    (t.withParams t').group i =
      if isNonZero (t.group i) then (zeroGroup : Vector Float32 width).setIfInBounds 0 (t.param i)
      else zeroGroup :=
  group_restore_clear (isNonZero_zeroGroup _) hmask i

/-- Nothing but the parameter is left of a group. -/
theorem channel_withParams (hmask : t'.mask = t.mask) (i : UInt64) {c : Nat} (hc : c < width)
    (hne : c ≠ 0) : ((t.withParams t').group i)[c] = 0 := by
  rw [group_withParams hmask]
  split <;> simp [zeroGroup, hne.symm]

theorem param_withParams (hmask : t'.mask = t.mask) (i : UInt64) :
    (t.withParams t').param i = if isNonZero (t.group i) then t.param i else 0 :=
  param_restore_taken hmask i

theorem isNonZero_withParams (hmask : t'.mask = t.mask) (i : UInt64) :
    isNonZero ((t.withParams t').group i) = (t.param i != 0) := by
  have hparam (h : (t.param i != 0) = true) : isNonZero ((t.withParams t').group i) = true := by
    refine isNonZero_of_param ?_
    rw [param_withParams hmask, if_pos (isNonZero_of_param h)]
    exact h
  rw [Bool.eq_iff_iff]
  refine ⟨fun h => ?_, hparam⟩
  obtain ⟨c, hc, hne⟩ := Vector.any_eq_true.mp h
  -- only the parameter can be other than zero
  by_cases hfirst : c = 0
  · subst hfirst
    have hget : ((t.withParams t').group i)[0] = (t.withParams t').param i := by
      rw [param, Vector.getElem?_eq_getElem hc, Option.getD_some]
    rw [hget, param_withParams hmask] at hne
    split at hne
    · exact hne
    · rw [zero_bne_zero] at hne
      cases hne
  · rw [channel_withParams hmask i hc hfirst, zero_bne_zero] at hne
    cases hne

/-- Records of zeros are not found again. -/
theorem records_withParams (hmask : t'.mask = t.mask) :
    (t.withParams t').records = t.records.filter fun r => r.2 != 0 := by
  refine eq_of_ascending Prod.fst (ordered_records _) ((ordered_records t).filter _) fun ⟨k, x⟩ => ?_
  rw [mem_records, List.mem_filter, mem_records, mask_withParams, hmask,
    isNonZero_withParams hmask, param_withParams hmask]
  constructor
  · rintro ⟨hk, hparam, rfl⟩
    rw [if_pos (isNonZero_of_param hparam)]
    exact ⟨⟨hk, isNonZero_of_param hparam, rfl⟩, hparam⟩
  · rintro ⟨⟨hk, hgroup, rfl⟩, hparam⟩
    rw [if_pos hgroup]
    exact ⟨hk, hparam, rfl⟩

theorem shownByParams_withParams (hmask : t'.mask = t.mask) : (t.withParams t').ShownByParams := by
  intro i hi
  rw [isNonZero_withParams hmask] at hi
  rw [param_withParams hmask, if_pos (isNonZero_of_param hi)]
  exact hi

/-- Equal models have equally many records. -/
theorem length_records_of_image (hbits : bits < 64) (hmask : t.mask = indexMask bits)
    (hmask' : t'.mask = indexMask bits) (h : t'.image = t.image) :
    t'.records.length = t.records.length := by
  have hcount (u : WeightTable Float32 width) : ∃ rest, ModelBuffer.next? UInt64 "weights.count"
      u.image = .ok (UInt64.ofNat u.records.length, rest) := by
    refine ⟨(u.records.map (Field.of "weights.param")).flatMap Field.encode, ?_⟩
    unfold image
    rw [fields_false]
    exact ModelBuffer.next?_encode (by decide +kernel) (decodes_word64 _) _
  obtain ⟨rest, hfirst⟩ := hcount t
  obtain ⟨rest', hfirst'⟩ := hcount t'
  rw [h, hfirst] at hfirst'
  have hcounts := congrArg UInt64.toNat (Prod.mk.inj (Except.ok.inj hfirst')).1
  rw [UInt64.toNat_ofNat_of_lt' (length_records_lt hbits hmask),
    UInt64.toNat_ofNat_of_lt' (length_records_lt hbits hmask')] at hcounts
  exact hcounts.symm

theorem image_withParams_iff (hbits : bits < 64) (hmask : t.mask = indexMask bits)
    (hmask' : t'.mask = t.mask) : (t.withParams t').image = t.image ↔ t.ShownByParams := by
  rw [shownByParams_iff]
  constructor
  · intro h
    have hlength := length_records_of_image hbits hmask
      ((mask_withParams t t').trans (hmask'.trans hmask)) h
    rw [records_withParams hmask'] at hlength
    exact List.length_filter_eq_length_iff.mp hlength
  · intro h
    have hrecords : (t.withParams t').records = t.records :=
      (records_withParams hmask').trans (List.filter_eq_self.mpr h)
    unfold image
    rw [fields_false, fields_false, hrecords]

/-! ## Models read and written again -/

/-- Without resume a model is the number of its records and the records, of which there is one for
every group that is not zero, in ascending order. They are the records of the parameters that are
not zero exactly if no group is recorded for its other channels alone. A table of the same size that
reads the model is left with the records that are not of zero, and is saved as the same model under
the same condition; from then on models stay as they are. -/
theorem image_again_iff (hbits : bits < 64) (hmask : t.mask = indexMask bits) :
    t.fields false = Field.of "weights.count" (UInt64.ofNat t.records.length) ::
        t.records.map (Field.of "weights.param") ∧
      (UInt64.ofNat t.records.length).toNat = t.records.length ∧
      t.Lists (fun k => isNonZero (t.group k) = true) t.records ∧
      (t.Lists (fun k => (t.param k != 0) = true) t.records ↔ t.ShownByParams) ∧
      ∀ t' : WeightTable Float32 width, t'.mask = indexMask bits →
        ∃ left, (load .binary false).runOn (.ofBytes t.image) t' =
            (.ok (), ⟨t.image, [], ""⟩, left) ∧
          left.records = (t.records.filter fun r => r.2 != 0) ∧ left.ShownByParams ∧
          (left.image = t.image ↔ t.ShownByParams) := by
  refine ⟨t.fields_false, UInt64.toNat_ofNat_of_lt' (length_records_lt hbits hmask),
    lists_nonZero hmask, lists_params_iff hmask, fun t' hmask' => ⟨t.withParams t', ?_, ?_⟩⟩
  · exact (reads_params hbits hmask t').run_written
  · have hsame : t'.mask = t.mask := hmask'.trans hmask.symm
    exact ⟨records_withParams hsame, shownByParams_withParams hsame,
      image_withParams_iff hbits hmask hsame⟩

/-- A group that is recorded for its other channels alone, beside one that is recorded for its
parameter, and an empty table that reads the model. -/
theorem image_again_iff_beside_zero :
    let t : WeightTable Float32 3 :=
      ((empty 4 .sparse).setGroup 5 #v[0, -2, 4]).setGroup 18 #v[1, 3, 1]
    (4 < 64 ∧ t.mask = indexMask 4) ∧ ¬ t.ShownByParams ∧
      ∃ left : WeightTable Float32 3,
        (load .binary false).runOn (.ofBytes t.image) (empty 4 .sparse) =
          (.ok (), ⟨t.image, [], ""⟩, left) ∧
        left.records = [(2, 1)] ∧ left.ShownByParams ∧ left.image ≠ t.image := by
  intro t
  have hmask : t.mask = indexMask 4 := rfl
  have hbits : 4 < 64 := by decide
  obtain ⟨-, -, -, -, hread⟩ := image_again_iff hbits hmask
  obtain ⟨left, hload, hrecords, hleft, himage⟩ := hread (empty 4 .sparse) rfl
  have hhidden : ¬ t.ShownByParams := by decide +kernel
  refine ⟨⟨hbits, hmask⟩, hhidden, left, hload, ?_, hleft, fun heq => hhidden (himage.mp heq)⟩
  rw [hrecords]
  decide +kernel

/-- A proximal optimizer whose penalty holds the parameter of the only feature of its example at
zero. -/
def shrunk : WeightTable Float32 3 :=
  (Optimizer.taught ((Context.initial .squared : NarrowContext).coverLabel 1)
    (.new .proximal ⟨0.005, 0.1, 3, 0⟩ 4 .sparse 3) (Optimizer.oneFeature 5 1)).weights

/-- What an optimizer has learned is recorded where the parameter is zero, and the second model has
one record less. -/
theorem not_params_only :
    let left := ((load .binary false).runOn (.ofBytes shrunk.image)
      (empty 4 .sparse : WeightTable Float32 3)).2.2
    ¬ shrunk.Lists (fun k => (shrunk.param k != 0) = true) shrunk.records ∧
      left.image ≠ shrunk.image := by
  intro left
  have hmask : shrunk.mask = indexMask 4 := Optimizer.mask_taught _ _ _
  have hhidden : ¬ shrunk.ShownByParams := by decide +kernel
  refine ⟨fun h => hhidden ((lists_params_iff hmask).mp h), fun h => ?_⟩
  have hload := (reads_params (by decide) hmask (empty 4 .sparse)).run_written
  have hleft : left = shrunk.withParams (empty 4 .sparse) := congrArg (fun run => run.2.2) hload
  rw [hleft] at h
  exact hhidden ((image_withParams_iff (by decide) hmask hmask.symm).mp h)

/-! ## Parameters in another table -/

/-- Numbers that are one and the same, or zeros of either sign. -/
def SameValue (x y : Float32) : Prop := x = y ∨ (x == 0) = true ∧ (y == 0) = true

/-- A table takes over all parameters of another one of its size, whatever it held before. Nothing
is left in its other channels, and nothing is read of what follows the model. -/
theorem load_image (hbits : bits < 64) {s t : WeightTable Float32 width}
    (hs : s.mask = indexMask bits) (ht : t.mask = indexMask bits) (rest : List UInt8) :
    ∃ left, (load .binary false).runOn (.ofBytes (s.image ++ rest)) t =
        (.ok (), ⟨s.image ++ rest, rest, ""⟩, left) ∧
      (∀ i, SameValue (left.param i) (s.param i)) ∧
      ∀ i (c : Nat) (hc : c < width), c ≠ 0 → (left.group i)[c] = 0 := by
  have hmask : t.mask = s.mask := ht.trans hs.symm
  refine ⟨s.withParams t, reads_params hbits hs t (s.image ++ rest) rest "", fun i => ?_,
    fun i c hc hne => channel_withParams hmask i hc hne⟩
  rw [param_withParams hmask]
  split
  · exact Or.inl rfl
  · rename_i hgroup
    have hparam : ¬ (s.param i != 0) = true := fun h => hgroup (isNonZero_of_param h)
    have hzero : (s.param i == 0) = true := by simpa [bne] using hparam
    exact Or.inr ⟨by decide +kernel, hzero⟩

/-- A dense table, with a zero of the other sign, into a sparse one that held something else. -/
theorem load_image_over_foreign :
    let s : WeightTable Float32 3 :=
      ((empty 4 .dense).setGroup 21 #v[1, -2, 4]).setGroup 6 #v[Float32.ofBits 0x80000000, 0, 0]
    let t : WeightTable Float32 3 := (empty 4 .sparse).setGroup 9 #v[7, 7, 7]
    (4 < 64 ∧ s.mask = indexMask 4 ∧ t.mask = indexMask 4) ∧
      ∃ left, (load .binary false).runOn (.ofBytes (s.image ++ [255])) t =
          (.ok (), ⟨s.image ++ [255], [255], ""⟩, left) ∧
        (∀ i, SameValue (left.param i) (s.param i)) ∧
        ∀ i (c : Nat) (hc : c < 3), c ≠ 0 → (left.group i)[c] = 0 :=
  ⟨⟨by decide, rfl, rfl⟩, load_image (by decide) rfl rfl [255]⟩

end WeightTable

end OnlineLearning
