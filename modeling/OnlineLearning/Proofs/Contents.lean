import Mathlib.Data.List.Sort
import OnlineLearning.Weights.Table

/-!
# What a table holds

A model lists the groups of a table that are not zero. The list says what the table holds, and
tables that hold the same have one list:

* `WeightTable.mem_nonZeroGroups`: what is listed;
* `WeightTable.eq_nonZeroGroups`: there is one ascending list of these groups only;
* `WeightTable.group_restore_clear`: what a cleared table holds into which the list is written.
-/

namespace OnlineLearning.WeightTable

/-- Lists with the same entries are one if their keys ascend. -/
theorem eq_of_ascending {α : Type} (key : α → UInt64) {entries entries' : List α}
    (hordered : entries.Pairwise fun a b => key a < key b)
    (hordered' : entries'.Pairwise fun a b => key a < key b)
    (hmem : ∀ e, e ∈ entries ↔ e ∈ entries') : entries = entries' := by
  have hirrefl : Std.Irrefl fun a b : α => key a < key b := ⟨fun _ => UInt64.lt_irrefl _⟩
  have hantisymm : Std.Antisymm fun a b : α => key a < key b :=
    ⟨fun _ _ h h' => absurd (UInt64.lt_trans h h') (UInt64.lt_irrefl _)⟩
  exact hordered.eq_of_mem_iff hordered' hmem

variable {R : Type} [Number R] {width : Nat} {t t' : WeightTable R width}

omit [Number R] in
theorem mask_of_mem_toList {k : UInt64} {g : Vector R width} (h : (k, g) ∈ t.groups.toList) :
    k &&& t.mask = k := by
  have hget := Std.ExtTreeMap.mem_toList_iff_getElem?_eq_some.mp h
  exact t.masked k (Std.ExtTreeMap.mem_iff_isSome_getElem?.mpr (by rw [hget]; rfl))

/-- A group that is not zero is listed under its masked index, and nothing else is. -/
theorem mem_nonZeroGroups (hzero : isNonZero (zeroGroup : Vector R width) = false) {k : UInt64}
    {g : Vector R width} :
    (k, g) ∈ t.nonZeroGroups ↔ k &&& t.mask = k ∧ t.group k = g ∧ isNonZero g = true := by
  unfold nonZeroGroups
  rw [List.mem_filter]
  constructor
  · rintro ⟨hmem, hg⟩
    have hmask := mask_of_mem_toList hmem
    refine ⟨hmask, ?_, hg⟩
    rw [group, hmask, Std.ExtTreeMap.getD_eq_getD_getElem?,
      Std.ExtTreeMap.mem_toList_iff_getElem?_eq_some.mp hmem]
    rfl
  · rintro ⟨hmask, hgroup, hg⟩
    refine ⟨Std.ExtTreeMap.mem_toList_iff_getElem?_eq_some.mpr ?_, hg⟩
    rw [group, hmask, Std.ExtTreeMap.getD_eq_getD_getElem?] at hgroup
    cases hget : t.groups[k]? with
    | some g' =>
      rw [hget] at hgroup
      exact congrArg some hgroup
    | none =>
      rw [hget] at hgroup
      rw [← hgroup, Option.getD_none, hzero] at hg
      cases hg

theorem group_and_mask (t : WeightTable R width) (i : UInt64) :
    t.group (i &&& t.mask) = t.group i :=
  group_congr (by rw [UInt64.and_assoc, UInt64.and_self])

theorem mem_nonZeroGroups_of_isNonZero (hzero : isNonZero (zeroGroup : Vector R width) = false)
    {i : UInt64} (h : isNonZero (t.group i) = true) :
    (i &&& t.mask, t.group i) ∈ t.nonZeroGroups := by
  refine (mem_nonZeroGroups hzero).mpr ⟨?_, t.group_and_mask i, h⟩
  rw [UInt64.and_assoc, UInt64.and_self]

/-- The list is strictly ascending. -/
theorem ordered_nonZeroGroups (t : WeightTable R width) :
    t.nonZeroGroups.Pairwise fun a b => a.1 < b.1 :=
  (Std.ExtTreeMap.ordered_keys_toList.imp fun h => Std.compare_eq_lt.mp h).filter _

/-- An ascending list of the groups that are not zero is the list. -/
theorem eq_nonZeroGroups (hzero : isNonZero (zeroGroup : Vector R width) = false)
    {entries : List (UInt64 × Vector R width)} (hordered : entries.Pairwise fun a b => a.1 < b.1)
    (hmem : ∀ k g, (k, g) ∈ entries ↔ k &&& t.mask = k ∧ t.group k = g ∧ isNonZero g = true) :
    entries = t.nonZeroGroups := by
  refine eq_of_ascending Prod.fst hordered (ordered_nonZeroGroups t) fun ⟨k, g⟩ => ?_
  rw [hmem, mem_nonZeroGroups hzero]

/-- Tables with the same groups under one mask have one list. -/
theorem nonZeroGroups_eq (hzero : isNonZero (zeroGroup : Vector R width) = false)
    (hmask : t'.mask = t.mask) (hgroup : ∀ i, t'.group i = t.group i) :
    t'.nonZeroGroups = t.nonZeroGroups := by
  refine eq_nonZeroGroups hzero (ordered_nonZeroGroups t') fun k g => ?_
  rw [mem_nonZeroGroups hzero, hmask, hgroup]

/-! ## The length of the list -/

theorem length_le_of_pairwise_lt {ns : List Nat} (first : Nat) {last : Nat}
    (h : ns.Pairwise (· < ·)) (hns : ∀ n ∈ ns, first ≤ n ∧ n ≤ last) (hfirst : first ≤ last + 1) :
    ns.length + first ≤ last + 1 := by
  induction ns generalizing first with
  | nil => simpa using hfirst
  | cons n ns ih =>
    obtain ⟨hn, hrest⟩ := List.pairwise_cons.mp h
    obtain ⟨hlower, hupper⟩ := hns n List.mem_cons_self
    have hlater := ih (n + 1) hrest
      (fun m hm => ⟨hn m hm, (hns m (List.mem_cons_of_mem _ hm)).2⟩) (by omega)
    rw [List.length_cons]
    omega

/-- A table lists at most as many groups as it has indices. -/
theorem length_nonZeroGroups_le (t : WeightTable R width) :
    t.nonZeroGroups.length ≤ t.mask.toNat + 1 := by
  have hordered : (t.nonZeroGroups.map fun e => e.1.toNat).Pairwise (· < ·) :=
    List.pairwise_map.mpr ((ordered_nonZeroGroups t).imp fun h => UInt64.lt_iff_toNat_lt.mp h)
  have hbound : ∀ n ∈ t.nonZeroGroups.map fun e => e.1.toNat, 0 ≤ n ∧ n ≤ t.mask.toNat := by
    intro n hn
    obtain ⟨⟨k, g⟩, hmem, rfl⟩ := List.mem_map.mp hn
    have hmask := mask_of_mem_toList (List.mem_filter.mp hmem).1
    refine ⟨Nat.zero_le _, ?_⟩
    rw [← hmask, UInt64.toNat_and]
    exact Nat.and_le_right
  have hlength := length_le_of_pairwise_lt 0 hordered hbound (Nat.zero_le _)
  rwa [List.length_map] at hlength

/-! ## Writing the list into another table -/

/-- Changes groups one after another, each as `f` makes it of the listed group and of what it was. -/
def restore (f : Vector R width → Vector R width → Vector R width) (t : WeightTable R width)
    (entries : List (UInt64 × Vector R width)) : WeightTable R width :=
  entries.foldl (fun t e => t.modify e.1 (f e.2)) t

variable {f : Vector R width → Vector R width → Vector R width}

@[simp] theorem mask_restore (t : WeightTable R width) (entries : List (UInt64 × Vector R width)) :
    (t.restore f entries).mask = t.mask := by
  induction entries generalizing t with
  | nil => rfl
  | cons e rest ih => exact ih (t.modify e.1 (f e.2))

theorem group_restore_of_not_mem {entries : List (UInt64 × Vector R width)} {j : UInt64}
    (h : ∀ e ∈ entries, e.1 &&& t.mask ≠ j &&& t.mask) :
    (t.restore f entries).group j = t.group j := by
  induction entries generalizing t with
  | nil => rfl
  | cons e rest ih =>
    have hrest := ih (t := t.modify e.1 (f e.2)) fun e' he' => h e' (List.mem_cons_of_mem _ he')
    refine hrest.trans ?_
    rw [group_modify, if_neg (h e List.mem_cons_self)]

theorem group_restore_of_mem {entries : List (UInt64 × Vector R width)} {k j : UInt64}
    {g : Vector R width} (hdistinct : entries.Pairwise fun a b => a.1 &&& t.mask ≠ b.1 &&& t.mask)
    (hmem : (k, g) ∈ entries) (hk : k &&& t.mask = j &&& t.mask) :
    (t.restore f entries).group j = f g (t.group j) := by
  induction entries generalizing t with
  | nil => exact absurd hmem List.not_mem_nil
  | cons e rest ih =>
    obtain ⟨hne, hrest⟩ := List.pairwise_cons.mp hdistinct
    rcases List.mem_cons.mp hmem with rfl | hmem
    · have hlater : ∀ e ∈ rest, e.1 &&& t.mask ≠ j &&& t.mask := fun e he heq =>
        hne e he (hk.trans heq.symm)
      refine (group_restore_of_not_mem (t := t.modify k (f g)) hlater).trans ?_
      rw [group_modify, if_pos hk, group_congr hk]
    · have hfirst : e.1 &&& t.mask ≠ j &&& t.mask := fun heq => hne _ hmem (heq.trans hk.symm)
      refine (ih (t := t.modify e.1 (f e.2)) hrest hmem hk).trans ?_
      rw [group_modify, if_neg hfirst]

/-- A cleared table into which the list of another one is written. -/
theorem group_restore_clear (hzero : isNonZero (zeroGroup : Vector R width) = false)
    (hmask : t'.mask = t.mask) (j : UInt64) :
    (t'.clear.restore f t.nonZeroGroups).group j =
      if isNonZero (t.group j) then f (t.group j) zeroGroup else zeroGroup := by
  have hmask' : t'.clear.mask = t.mask := hmask
  have hlisted : ∀ e ∈ t.nonZeroGroups, e.1 &&& t.mask = e.1 := by
    rintro ⟨k, g⟩ he
    exact ((mem_nonZeroGroups hzero).mp he).1
  cases hj : isNonZero (t.group j) with
  | true =>
    have hmem := mem_nonZeroGroups_of_isNonZero hzero hj
    rw [if_pos rfl, group_restore_of_mem ?_ hmem ?_, group_clear]
    · refine (ordered_nonZeroGroups t).imp_of_mem fun {a b} ha hb hlt => ?_
      rw [hmask', hlisted a ha, hlisted b hb]
      exact fun heq => UInt64.lt_irrefl _ (heq ▸ hlt)
    · rw [hmask']
      exact hlisted _ hmem
  | false =>
    rw [if_neg Bool.false_ne_true, group_restore_of_not_mem, group_clear]
    rintro ⟨k, g⟩ he heq
    obtain ⟨hk, hg, hne⟩ := (mem_nonZeroGroups hzero).mp he
    rw [hmask', hk] at heq
    rw [← hg, heq, group_and_mask, hj] at hne
    cases hne

/-- A cleared table into which the list of another one is written holds the groups of that one,
provided that groups that are zero are all one. -/
theorem group_restore_clear_self (hzero : isNonZero (zeroGroup : Vector R width) = false)
    (hmask : t'.mask = t.mask)
    (hexact : ∀ i, isNonZero (t.group i) = false → t.group i = zeroGroup) (j : UInt64) :
    (t'.clear.restore (fun g _ => g) t.nonZeroGroups).group j = t.group j := by
  rw [group_restore_clear hzero hmask]
  split
  · rfl
  · rename_i hj
    exact (hexact j (Bool.eq_false_iff.mpr hj)).symm

/-- A cleared table into which the list of another one is written has that list. -/
theorem nonZeroGroups_restore_clear (hzero : isNonZero (zeroGroup : Vector R width) = false)
    (hmask : t'.mask = t.mask) :
    (t'.clear.restore (fun g _ => g) t.nonZeroGroups).nonZeroGroups = t.nonZeroGroups := by
  refine (eq_nonZeroGroups hzero (ordered_nonZeroGroups t) fun k g => ?_).symm
  have hmask' : (t'.clear.restore (fun g _ => g) t.nonZeroGroups).mask = t.mask :=
    (mask_restore _ _).trans hmask
  rw [mem_nonZeroGroups hzero, hmask', group_restore_clear hzero hmask]
  cases hk : isNonZero (t.group k) with
  | true => rw [if_pos rfl]
  | false =>
    have hne {g' : Vector R width} (hg' : isNonZero g' = false) : ¬ (g' = g ∧ isNonZero g = true) := by
      rintro ⟨rfl, hg⟩
      rw [hg'] at hg
      cases hg
    rw [if_neg Bool.false_ne_true]
    exact and_congr_right fun _ => iff_of_false (hne hk) (hne hzero)

end OnlineLearning.WeightTable
