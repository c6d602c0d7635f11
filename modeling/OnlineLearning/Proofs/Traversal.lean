import OnlineLearning.Proofs.Rows

/-!
# Traversals

A table can be asked for the next group that is not zero. Who asks again from behind each answer,
until there is none, has met all of these groups in ascending order.

* `Search` is a way to ask for the next index, `Search.traverse` lists the answers;
* `Search.Finds.mem_traverse`: nothing is left out where every answer is the first one possible;
* `WeightTable.traverse_complete`: what a traversal of a table lists, in either layout.
-/

namespace OnlineLearning

/-- A way to ask for the next index from `first` on and below `stop`. -/
@[ext] structure Search where
  next? : UInt64 → UInt64 → Option UInt64
  /-- An answer lies in the range that was asked for. -/
  within : ∀ {first stop i : UInt64}, next? first stop = some i → first ≤ i ∧ i < stop

theorem toNat_add_one_of_lt {i stop : UInt64} (h : i < stop) : (i + 1).toNat = i.toNat + 1 := by
  have hlt := UInt64.lt_iff_toNat_lt.mp h
  have hstop := stop.toNat_lt_size
  rw [UInt64.toNat_add]
  exact Nat.mod_eq_of_lt (Nat.lt_of_le_of_lt hlt hstop)

namespace Search

/-- The answers to a question that is asked again from behind each of them, until there is none. -/
def traverse (s : Search) (first stop : UInt64) : List UInt64 :=
  match hnext : s.next? first stop with
  | none => []
  | some i => i :: s.traverse (i + 1) stop
termination_by stop.toNat - first.toNat
decreasing_by
  obtain ⟨hfirst, hstop⟩ := s.within hnext
  have hle := UInt64.le_iff_toNat_le.mp hfirst
  have hlt := UInt64.lt_iff_toNat_lt.mp hstop
  rw [toNat_add_one_of_lt hstop]
  omega

/-- Every answer is the first index in its range that is marked, and there is one if there is such
an index. -/
structure Finds (s : Search) (marked : UInt64 → Prop) : Prop where
  sound : ∀ {first stop i : UInt64}, s.next? first stop = some i → marked i
  least : ∀ {first stop j : UInt64}, first ≤ j → j < stop → marked j →
    ∃ i, s.next? first stop = some i ∧ i ≤ j

namespace Finds

variable {s : Search} {marked : UInt64 → Prop}

/-- A traversal lists what is marked in its range. -/
theorem mem_traverse (h : s.Finds marked) {first stop j : UInt64} :
    j ∈ s.traverse first stop ↔ first ≤ j ∧ j < stop ∧ marked j := by
  fun_induction s.traverse first stop with
  | case1 first hnext =>
    refine iff_of_false List.not_mem_nil ?_
    rintro ⟨hfirst, hstop, hj⟩
    obtain ⟨i, hi, -⟩ := h.least hfirst hstop hj
    rw [hnext] at hi
    cases hi
  | case2 first i hnext ih =>
    obtain ⟨hfirst, hstop⟩ := s.within hnext
    rw [List.mem_cons, ih, UInt64.le_iff_toNat_le, toNat_add_one_of_lt hstop]
    constructor
    · rintro (rfl | ⟨hlater, hj⟩)
      · exact ⟨hfirst, hstop, h.sound hnext⟩
      · exact ⟨UInt64.le_trans hfirst (UInt64.le_iff_toNat_le.mpr (by omega)), hj⟩
    · rintro ⟨hj, hmarked⟩
      -- the answer is not behind `j`, so that `j` is the answer or comes later
      obtain ⟨i', hi', hle⟩ := h.least hj hmarked.1 hmarked.2
      rw [hnext] at hi'
      cases hi'
      rcases Nat.eq_or_lt_of_le (UInt64.le_iff_toNat_le.mp hle) with heq | hlt
      · exact .inl (UInt64.toNat_inj.mp heq.symm)
      · exact .inr ⟨hlt, hmarked⟩

/-- A traversal is ascending, so that it lists nothing twice. -/
theorem pairwise_traverse (h : s.Finds marked) (first stop : UInt64) :
    (s.traverse first stop).Pairwise (· < ·) := by
  fun_induction s.traverse first stop with
  | case1 first hnext => exact List.Pairwise.nil
  | case2 first i hnext ih =>
    refine List.pairwise_cons.mpr ⟨fun j hj => ?_, ih⟩
    have hlater := UInt64.le_iff_toNat_le.mp (h.mem_traverse.mp hj).1
    rw [toNat_add_one_of_lt (s.within hnext).2] at hlater
    exact UInt64.lt_iff_toNat_lt.mpr hlater

end Finds

end Search

variable {width bits : Nat}

namespace WeightTable

variable {t : WeightTable Float32 width}

/-- A table is asked for the next group that is not zero. -/
def search (t : WeightTable Float32 width) : Search where
  next? := t.nextNonZero?
  within h := by
    have hi := List.find?_some h
    simp only [Bool.and_eq_true, decide_eq_true_eq] at hi
    exact hi.1

theorem isNonZero_iff {g : Vector Float32 width} :
    isNonZero g = true ↔ ∃ x ∈ g, (x != 0) = true := by
  unfold isNonZero
  rw [Vector.any_eq_true']

theorem rows_eq (hmask : t.mask = indexMask bits) : t.rows = 2 ^ min bits 64 := by
  unfold rows
  rw [hmask, toNat_indexMask, Nat.sub_add_cancel (Nat.two_pow_pos _)]

/-- The indices of a table are the numbers of as many bits as it has. -/
theorem toNat_lt_rows_iff (hmask : t.mask = indexMask bits) {i : UInt64} :
    i.toNat < t.rows ↔ i.toNat < 2 ^ bits := by
  rw [rows_eq hmask]
  rcases Nat.le_total bits 64 with h | h
  · rw [Nat.min_eq_left h]
  · rw [Nat.min_eq_right h]
    exact iff_of_true i.toNat_lt (Nat.lt_of_lt_of_le i.toNat_lt (Nat.pow_le_pow_right two_pos h))

theorem mem_nonZeroIndices (hmask : t.mask = indexMask bits) {i : UInt64} :
    i ∈ t.nonZeroIndices ↔ i.toNat < t.rows ∧ isNonZero (t.group i) = true := by
  have hindex : i &&& t.mask = i ↔ i.toNat < t.rows := by
    unfold rows
    rw [hmask]
    exact and_indexMask bits i
  unfold nonZeroIndices
  simp only [List.mem_map, Prod.exists, mem_nonZeroGroups (isNonZero_zeroGroup _)]
  constructor
  · rintro ⟨k, g, ⟨hk, rfl, hg⟩, rfl⟩
    exact ⟨hindex.mp hk, hg⟩
  · rintro ⟨hi, hg⟩
    exact ⟨i, t.group i, ⟨hindex.mpr hi, rfl, hg⟩, rfl⟩

theorem ordered_nonZeroIndices (t : WeightTable Float32 width) :
    t.nonZeroIndices.Pairwise (· < ·) :=
  List.pairwise_map.mpr (ordered_nonZeroGroups t)

/-- What is found first in an ascending list is the least that could be found. -/
theorem le_of_find?_eq_some {indices : List UInt64} {p : UInt64 → Bool} {i j : UInt64}
    (hordered : indices.Pairwise (· < ·)) (hi : indices.find? p = some i) (hj : j ∈ indices)
    (hp : p j = true) : i ≤ j := by
  obtain ⟨-, before, after, rfl, hbefore⟩ := List.find?_eq_some_iff_append.mp hi
  rcases List.mem_append.mp hj with hj | hj
  · have hnot := hbefore j hj
    rw [hp] at hnot
    cases hnot
  · rcases List.mem_cons.mp hj with rfl | hj
    · exact UInt64.le_refl _
    · have hlater := (List.pairwise_append.mp hordered).2.1
      exact UInt64.le_of_lt (List.rel_of_pairwise_cons hlater hj)

theorem search_finds (hmask : t.mask = indexMask bits) :
    t.search.Finds fun i => i.toNat < t.rows ∧ isNonZero (t.group i) = true where
  sound h := (mem_nonZeroIndices hmask).mp (List.mem_of_find?_eq_some h)
  least {first stop j} hfirst hstop hj := by
    have hmem := (mem_nonZeroIndices hmask).mpr hj
    have hp : (first ≤ j && j < stop && j.toNat < t.rows : Bool) = true := by
      simp only [Bool.and_eq_true, decide_eq_true_eq]
      exact ⟨⟨hfirst, hstop⟩, hj.1⟩
    cases hnext : t.search.next? first stop with
    | none => exact absurd hp (List.find?_eq_none.mp hnext j hmem)
    | some i => exact ⟨i, rfl, le_of_find?_eq_some (ordered_nonZeroIndices t) hnext hmem hp⟩

end WeightTable

namespace Rows

theorem within_of_nextNonZero? (r : Rows width) {first stop i : UInt64}
    (h : r.nextNonZero? first stop = some i) : first ≤ i ∧ i < stop := by
  rw [nextNonZero?_eq_find?, Option.map_eq_some_iff] at h
  obtain ⟨e, he, rfl⟩ := h
  obtain ⟨k, hk, rfl⟩ := List.mem_take_iff_getElem.mp (List.mem_of_find?_eq_some he)
  rw [List.length_drop, r.length_toList] at hk
  have hsize : first.toNat + k < r.rows.size := by omega
  have hindex : (UInt64.ofNat (first.toNat + k)).toNat = first.toNat + k :=
    WeightTable.toNat_ofNat_of_le (Nat.lt_succ_iff.mp (hsize.trans_eq r.size_eq))
  rw [List.getElem_drop, r.getElem_toList _ hsize, UInt64.le_iff_toNat_le, UInt64.lt_iff_toNat_lt,
    hindex]
  omega

/-- Rows are asked for the next one that is not zero. -/
def search (r : Rows width) : Search := ⟨r.nextNonZero?, r.within_of_nextNonZero?⟩

theorem Spread.search_eq {r : Rows width} {t : WeightTable Float32 width} (h : Spread bits r t) :
    r.search = t.search :=
  Search.ext (funext fun first => funext fun stop => h.nextNonZero?_eq first stop)

end Rows

namespace WeightTable

variable {t : WeightTable Float32 width}

/-- A traversal of a table of either layout ends and lists, in ascending order, the indices in the
range and below `2 ^ bits` whose group has some channel that is not zero, and no others. Over all
indices this is the list of the groups that are not zero, which is also what is left of all groups
that the table goes through. A dense table that is held row by row has the same traversals. -/
theorem traverse_complete (hmask : t.mask = indexMask bits) (first stop : UInt64) :
    (t.search.traverse first stop).Pairwise (· < ·) ∧
    (∀ i, i ∈ t.search.traverse first stop ↔
      first ≤ i ∧ i.toNat < min stop.toNat (2 ^ bits) ∧ ∃ x ∈ t.group i, (x != 0) = true) ∧
    (2 ^ bits ≤ stop.toNat → t.search.traverse 0 stop = t.nonZeroIndices) ∧
    t.nonZeroIndices = (t.toList.filter fun e => isNonZero e.2).map Prod.fst ∧
    ∀ r : Rows width, r.Spread bits t →
      r.search.traverse first stop = t.search.traverse first stop := by
  have hfinds := search_finds hmask
  refine ⟨hfinds.pairwise_traverse first stop, fun i => ?_, fun hstop => ?_, ?_, fun r hr => ?_⟩
  · rw [hfinds.mem_traverse, toNat_lt_rows_iff hmask, isNonZero_iff, UInt64.lt_iff_toNat_lt,
      lt_min_iff, and_assoc]
  · refine eq_of_ascending id (hfinds.pairwise_traverse 0 stop) (ordered_nonZeroIndices t)
      fun i => ?_
    rw [hfinds.mem_traverse, mem_nonZeroIndices hmask]
    refine ⟨fun h => h.2.2, fun h => ⟨UInt64.zero_le, ?_, h⟩⟩
    exact UInt64.lt_iff_toNat_lt.mpr (((toNat_lt_rows_iff hmask).mp h.1).trans_le hstop)
  · rw [filter_toList hmask]
    rfl
  · rw [hr.search_eq]

/-- A group of which only the second channel is not zero is met, and nothing is from a start behind
the end. -/
theorem traverse_complete_second_channel :
    let t := (WeightTable.empty 4 .sparse : WeightTable Float32 3).setChannel 5 1 1
    t.mask = indexMask 4 ∧ t.search.traverse 0 16 = [5] ∧ t.search.traverse 9 3 = [] := by
  intro t
  have hmask : t.mask = indexMask 4 := rfl
  have hlist : t.nonZeroIndices = [5] := by decide +kernel
  refine ⟨hmask, ?_, ?_⟩
  · rw [(traverse_complete hmask 0 16).2.2.1 (by decide), hlist]
  · refine List.eq_nil_iff_forall_not_mem.mpr fun i hi => ?_
    obtain ⟨hfirst, hstop, -⟩ := ((traverse_complete hmask 9 3).2.1 i).mp hi
    have h9 : 9 ≤ i.toNat := UInt64.le_iff_toNat_le.mp hfirst
    have h3 : i.toNat < 3 := hstop.trans_le (Nat.min_le_left _ _)
    omega

end WeightTable

end OnlineLearning
