import OnlineLearning.Proofs.ModelsAlike

/-!
# Rows

A dense table is held as a map in which rows that were never written are missing. Here it is spread
out: an array with a row for every index, which is written in place and searched from row to row.
Both are the same table.

* `Rows` is an array of rows with its operations;
* `Rows.Spread` says that rows have the content of a table;
* `Rows.toList_eq`: the rows from the first to the last are the list of a dense table;
* `Rows.nextNonZero?_eq`: the search from row to row finds what the search in the map finds.
-/

namespace OnlineLearning

variable {width : Nat}

/-! ## Numbers of rows -/

namespace WeightTable

theorem toNat_indexMask (bits : Nat) : (indexMask bits).toNat = 2 ^ min bits 64 - 1 := by
  refine Nat.eq_of_testBit_eq fun i => ?_
  unfold indexMask
  rw [UInt64.toNat_ofNat', Nat.pow_eq, Nat.testBit_mod_two_pow, Nat.testBit_two_pow_sub_one,
    Nat.testBit_two_pow_sub_one, ← Bool.decide_and]
  congr 1
  simp [and_comm]

/-- The indices of a table are the numbers up to its mask. -/
theorem and_indexMask (bits : Nat) (k : UInt64) :
    k &&& indexMask bits = k ↔ k.toNat < (indexMask bits).toNat + 1 := by
  have hpos : 0 < 2 ^ min bits 64 := Nat.two_pow_pos _
  rw [← UInt64.toNat_inj, UInt64.toNat_and, toNat_indexMask, Nat.and_two_pow_sub_one_eq_mod,
    Nat.sub_add_cancel hpos]
  constructor
  · intro h
    rw [← h]
    exact Nat.mod_lt _ hpos
  · exact Nat.mod_eq_of_lt

/-- The number of a row, read as an index, is that number. -/
theorem toNat_ofNat_of_le {mask : UInt64} {i : Nat} (h : i ≤ mask.toNat) :
    (UInt64.ofNat i).toNat = i := by
  have hmax := mask.toNat_lt_size
  exact UInt64.toNat_ofNat_of_lt' (by omega)

/-- In either layout the groups that are not zero are those of the list. -/
theorem filter_toList {t : WeightTable Float32 width} {bits : Nat}
    (hmask : t.mask = indexMask bits) :
    (t.toList.filter fun e => isNonZero e.2) = t.nonZeroGroups := by
  unfold toList
  split
  -- a dense table lists its rows, and their numbers are the indices up to the mask
  · have hrow {i : Nat} (hi : i ∈ List.range t.rows) : (UInt64.ofNat i).toNat = i :=
      toNat_ofNat_of_le (Nat.lt_succ_iff.mp (List.mem_range.mp hi))
    refine eq_nonZeroGroups (isNonZero_zeroGroup _) (List.Pairwise.filter _ ?_) fun k g => ?_
    · refine List.pairwise_map.mpr (List.pairwise_lt_range.imp_of_mem fun {i j} hi hj hlt => ?_)
      rw [UInt64.lt_iff_toNat_lt, hrow hi, hrow hj]
      exact hlt
    · rw [List.mem_filter, List.mem_map, hmask, and_indexMask, ← hmask, ← and_assoc]
      refine and_congr_left fun _ => ⟨?_, fun ⟨hk, hg⟩ => ?_⟩
      · rintro ⟨i, hi, heq⟩
        cases heq
        rw [hrow hi]
        exact ⟨List.mem_range.mp hi, rfl⟩
      · exact ⟨k.toNat, List.mem_range.mpr hk, by rw [UInt64.ofNat_toNat, hg]⟩
  · rfl

end WeightTable

open WeightTable

/-! ## Rows -/

/-- An array of rows of channels, with one row for every index up to the mask. -/
structure Rows (width : Nat) where
  mask : UInt64
  rows : Array (Vector Float32 width)
  size_eq : rows.size = mask.toNat + 1

namespace Rows

def empty (bits : Nat) : Rows width where
  mask := indexMask bits
  rows := Array.replicate ((indexMask bits).toNat + 1) zeroGroup
  size_eq := Array.size_replicate

theorem and_mask_lt (r : Rows width) (index : UInt64) : (index &&& r.mask).toNat < r.rows.size := by
  have hle : (index &&& r.mask).toNat ≤ r.mask.toNat := by
    rw [UInt64.toNat_and]
    exact Nat.and_le_right
  rw [r.size_eq]
  omega

def group (r : Rows width) (index : UInt64) : Vector Float32 width :=
  have h := r.and_mask_lt index
  r.rows[(index &&& r.mask).toNat]

def modify (r : Rows width) (index : UInt64) (change : Vector Float32 width → Vector Float32 width) :
    Rows width where
  mask := r.mask
  rows := r.rows.modify (index &&& r.mask).toNat change
  size_eq := by rw [Array.size_modify, r.size_eq]

def param (r : Rows width) (index : UInt64) : Float32 := ((r.group index)[0]?).getD 0

/-- All rows with their numbers. -/
def toList (r : Rows width) : List (UInt64 × Vector Float32 width) :=
  r.rows.toList.mapIdx fun i g => (UInt64.ofNat i, g)

def nonZeroGroups (r : Rows width) : List (UInt64 × Vector Float32 width) :=
  r.toList.filter fun e => isNonZero e.2

/-- Goes through the rows from `first` on, up to `stop` or to the last row. -/
def nextNonZero? (r : Rows width) (first stop : UInt64) : Option UInt64 :=
  let last := min stop.toNat r.rows.size
  if last ≤ first.toNat then none
  else
    let searched := (r.toList.drop first.toNat).take (last - first.toNat)
    (searched.find? fun e => isNonZero e.2).map Prod.fst

def clear (r : Rows width) : Rows width where
  mask := r.mask
  rows := Array.replicate r.rows.size zeroGroup
  size_eq := by rw [Array.size_replicate, r.size_eq]

/-- The fields of a model of the rows that are not zero. -/
def fields (r : Rows width) (resume : Bool) : List Field :=
  let count := Field.of "weights.count" (UInt64.ofNat r.nonZeroGroups.length)
  let groups := r.nonZeroGroups.map fun e => groupField resume e.1 e.2
  if resume then Field.of "weights.width" (UInt64.ofNat width) :: count :: groups
  else count :: groups

/-- Rows as something that holds groups. -/
def store : Store width (Rows width) := ⟨clear, modify⟩

/-! ## Rows and tables -/

/-- Rows that have the content of a dense table. -/
structure Spread (bits : Nat) (r : Rows width) (t : WeightTable Float32 width) : Prop where
  layout : t.layout = .dense
  mask : t.mask = indexMask bits
  mask_eq : r.mask = t.mask
  group : ∀ index, r.group index = t.group index

theorem spread_empty (bits : Nat) :
    Spread bits (empty bits : Rows width) (WeightTable.empty bits .dense) := by
  refine ⟨rfl, rfl, rfl, fun index => ?_⟩
  rw [group_empty]
  exact Array.getElem_replicate _

theorem length_toList (r : Rows width) : r.toList.length = r.rows.size := by
  unfold toList
  rw [List.length_mapIdx, Array.length_toList]

theorem getElem_toList (r : Rows width) {i : Nat} (hi : i < r.toList.length)
    (hsize : i < r.rows.size) : r.toList[i] = (UInt64.ofNat i, r.rows[i]) :=
  List.getElem_mapIdx

variable {bits : Nat} {r : Rows width} {t : WeightTable Float32 width}

namespace Spread

theorem clear (h : Spread bits r t) : Spread bits r.clear t.clear := by
  refine ⟨h.layout, h.mask, h.mask_eq, fun index => ?_⟩
  rw [group_clear]
  exact Array.getElem_replicate _

theorem modify (h : Spread bits r t) (index : UInt64)
    (change : Vector Float32 width → Vector Float32 width) :
    Spread bits (r.modify index change) (t.modify index change) := by
  refine ⟨h.layout, h.mask, h.mask_eq, fun other => ?_⟩
  have hrow : (r.modify index change).group other =
      if (index &&& r.mask).toNat = (other &&& r.mask).toNat then change (r.group other)
      else r.group other := Array.getElem_modify _
  rw [hrow, group_modify, h.mask_eq, h.group]
  by_cases hsame : index &&& t.mask = other &&& t.mask
  · rw [if_pos hsame, if_pos (congrArg UInt64.toNat hsame), group_congr hsame]
  · rw [if_neg hsame, if_neg fun heq => hsame (UInt64.toNat_inj.mp heq)]

theorem param_eq (h : Spread bits r t) (index : UInt64) : r.param index = t.param index := by
  unfold Rows.param WeightTable.param
  rw [h.group]

theorem size_eq (h : Spread bits r t) : r.rows.size = t.rows := by
  rw [r.size_eq, h.mask_eq]
  rfl

/-- The number of a row, read as an index, finds that row. -/
theorem index_of_lt (h : Spread bits r t) {i : Nat} (hi : i < r.rows.size) :
    (UInt64.ofNat i).toNat = i ∧ r.group (UInt64.ofNat i) = r.rows[i] := by
  have hsize : i < (indexMask bits).toNat + 1 := by
    rw [← h.mask]
    rwa [h.size_eq] at hi
  have hindex : (UInt64.ofNat i).toNat = i := toNat_ofNat_of_le (Nat.lt_succ_iff.mp hsize)
  have hmasked : UInt64.ofNat i &&& indexMask bits = UInt64.ofNat i :=
    (and_indexMask bits _).mpr (by rwa [hindex])
  refine ⟨hindex, ?_⟩
  unfold Rows.group
  simp only [h.mask_eq, h.mask, hmasked, hindex]

/-- The rows from the first to the last are the list of a dense table. -/
theorem toList_eq (h : Spread bits r t) : r.toList = t.toList := by
  have hlist : t.toList =
      (List.range t.rows).map fun i => (UInt64.ofNat i, t.group (UInt64.ofNat i)) := by
    unfold WeightTable.toList
    rw [h.layout]
  rw [hlist]
  refine List.ext_getElem ?_ fun i hi _ => ?_
  · rw [r.length_toList, List.length_map, List.length_range, h.size_eq]
  · have hsize : i < r.rows.size := by rwa [r.length_toList] at hi
    rw [List.getElem_map, List.getElem_range, r.getElem_toList hi hsize, ← h.group,
      (h.index_of_lt hsize).2]

theorem nonZeroGroups_eq (h : Spread bits r t) : r.nonZeroGroups = t.nonZeroGroups := by
  unfold Rows.nonZeroGroups
  rw [h.toList_eq, filter_toList h.mask]

theorem fields_eq (h : Spread bits r t) (resume : Bool) : r.fields resume = t.fields resume := by
  unfold Rows.fields WeightTable.fields
  rw [h.nonZeroGroups_eq]
  cases resume with
  | true => rfl
  | false => rfl

end Spread

/-- A search through a slice of numbered rows is a search through all rows for one with a number in
the slice. -/
theorem find?_slice {rows : List (UInt64 × Vector Float32 width)}
    (hrows : ∀ i (h : i < rows.length), rows[i].1.toNat = i)
    (p : UInt64 × Vector Float32 width → Bool) (first last : Nat) :
    ((rows.drop first).take (last - first)).find? p =
      rows.find? fun e => p e && (first ≤ e.1.toNat && e.1.toNat < last) := by
  have hbefore : (rows.take first).find? (fun e => p e && (first ≤ e.1.toNat && e.1.toNat < last)) =
      none := by
    refine List.find?_eq_none.mpr fun e he => ?_
    obtain ⟨i, hi, rfl⟩ := List.mem_take_iff_getElem.mp he
    simp only [hrows, Bool.and_eq_true, decide_eq_true_eq]
    omega
  have hafter : ((rows.drop first).drop (last - first)).find?
      (fun e => p e && (first ≤ e.1.toNat && e.1.toNat < last)) = none := by
    refine List.find?_eq_none.mpr fun e he => ?_
    rw [List.drop_drop] at he
    obtain ⟨i, hi, rfl⟩ := List.mem_drop_iff_getElem.mp he
    simp only [hrows, Bool.and_eq_true, decide_eq_true_eq]
    omega
  have hwithin : ((rows.drop first).take (last - first)).find? p =
      ((rows.drop first).take (last - first)).find?
        fun e => p e && (first ≤ e.1.toNat && e.1.toNat < last) := by
    refine List.find?_congr fun e he => ?_
    obtain ⟨i, hi, rfl⟩ := List.mem_take_iff_getElem.mp he
    rw [List.length_drop] at hi
    have hslice : (first ≤ first + i && first + i < last) = true := by
      simp only [Bool.and_eq_true, decide_eq_true_eq]
      omega
    simp only [List.getElem_drop, hrows, hslice, Bool.and_true]
  calc ((rows.drop first).take (last - first)).find? p
      = (rows.take first ++ ((rows.drop first).take (last - first) ++
          (rows.drop first).drop (last - first))).find?
            fun e => p e && (first ≤ e.1.toNat && e.1.toNat < last) := by
        rw [List.find?_append, List.find?_append, hbefore, hafter, ← hwithin, Option.none_or,
          Option.or_none]
    _ = rows.find? fun e => p e && (first ≤ e.1.toNat && e.1.toNat < last) := by
        rw [List.take_append_drop, List.take_append_drop]

/-- The rows of the list are numbered from zero. -/
theorem Spread.toNat_toList (h : Spread bits r t) (i : Nat) (hi : i < r.toList.length) :
    r.toList[i].1.toNat = i := by
  have hsize : i < r.rows.size := by rwa [r.length_toList] at hi
  rw [r.getElem_toList hi hsize]
  exact (h.index_of_lt hsize).1

/-- The search goes through a slice of the rows; an empty one needs no case of its own. -/
theorem nextNonZero?_eq_find? (r : Rows width) (first stop : UInt64) :
    r.nextNonZero? first stop =
      (((r.toList.drop first.toNat).take (min stop.toNat r.rows.size - first.toNat)).find?
        fun e => isNonZero e.2).map Prod.fst := by
  unfold nextNonZero?
  dsimp only
  split
  · rename_i hempty
    rw [Nat.sub_eq_zero_of_le hempty]
    rfl
  · rfl

/-- The search from row to row finds what the search in the map finds. -/
theorem Spread.nextNonZero?_eq (h : Spread bits r t) (first stop : UInt64) :
    r.nextNonZero? first stop = t.nextNonZero? first stop := by
  have hlist : t.nonZeroGroups = r.toList.filter fun e => isNonZero e.2 := by
    rw [h.toList_eq, filter_toList h.mask]
  unfold WeightTable.nextNonZero? WeightTable.nonZeroIndices
  rw [nextNonZero?_eq_find?, find?_slice h.toNat_toList, hlist, List.find?_map, List.find?_filter]
  congr 2
  funext e
  rw [Bool.eq_iff_iff, h.size_eq]
  simp only [Function.comp, Bool.and_eq_true, decide_eq_true_eq, lt_min_iff,
    UInt64.le_iff_toNat_le, UInt64.lt_iff_toNat_lt, and_assoc]

/-- A load leaves the same table. -/
theorem load_alike (format : ModelFormat) (resume : Bool) :
    LoadM.Alike (Spread bits) (Spread bits) ((store : Store width (Rows width)).load format resume)
      (WeightTable.load format resume) := by
  rw [WeightTable.load_eq]
  exact Store.load_alike (fun index change h => h.modify index change) (fun h => h.clear) format
    resume

end Rows

end OnlineLearning
