import Std.Data.ExtTreeMap.Lemmas
import OnlineLearning.Index
import OnlineLearning.Scalar

/-!
# Weight tables

A table gives every index a group of `width` channels; the first channel is the parameter that
predictions use. Indices are taken under the mask of the table.

A dense table holds a group for every index; those that were never written are zero and are not
stored. A sparse table holds the groups that were touched and answers `none` for the others.
Either way `group` is the content, a zero group standing for an absent one; `group_setGroup` and
`group_modify` say what a change does to it.
-/

namespace OnlineLearning

inductive Layout where
  | dense
  | sparse
  deriving DecidableEq, Repr

structure WeightTable (R : Type) (width : Nat) where
  layout : Layout
  mask : UInt64
  groups : Std.ExtTreeMap UInt64 (Vector R width)
  /-- No group is held that `group` does not find. -/
  masked : ∀ index ∈ groups, index &&& mask = index

namespace WeightTable

variable {R : Type} {width : Nat}

/-- A table of `2 ^ bits` groups, none of them touched. -/
def empty (bits : Nat) (layout : Layout) : WeightTable R width :=
  { layout, mask := indexMask bits, groups := ∅, masked := by simp }

/-- The number of indices. -/
def rows (t : WeightTable R width) : Nat := t.mask.toNat + 1

/-- The number of groups that a sparse table holds; a dense table allocates none one by one. -/
def touched (t : WeightTable R width) : Nat :=
  match t.layout with
  | .dense => 0
  | .sparse => t.groups.size

variable [Number R]

def zeroGroup : Vector R width := Vector.replicate width 0

/-- The content of a table at an index. -/
def group (t : WeightTable R width) (index : UInt64) : Vector R width :=
  t.groups.getD (index &&& t.mask) zeroGroup

/-- Indices that are one under the mask have one group. -/
theorem group_congr {t : WeightTable R width} {i j : UInt64} (h : i &&& t.mask = j &&& t.mask) :
    t.group i = t.group j := by
  rw [group, group, h]

/-- The group at an index, if the table holds one. -/
def group? (t : WeightTable R width) (index : UInt64) : Option (Vector R width) :=
  match t.layout with
  | .dense => some (t.group index)
  | .sparse => t.groups[index &&& t.mask]?

/-- Writes a group, holding it from now on. -/
def setGroup (t : WeightTable R width) (index : UInt64) (g : Vector R width) :
    WeightTable R width :=
  { t with
    groups := t.groups.insert (index &&& t.mask) g
    masked := by
      intro held h
      rcases Std.ExtTreeMap.mem_insert.mp h with heq | hmem
      · rw [← Std.LawfulEqCmp.eq_of_compare heq, UInt64.and_assoc, UInt64.and_self]
      · exact t.masked held hmem }

/-- Changes a group, starting from zero where the table holds none. -/
def modify (t : WeightTable R width) (index : UInt64) (f : Vector R width → Vector R width) :
    WeightTable R width :=
  t.setGroup index (f (t.group index))

/-- Writes one channel of a group. -/
def setChannel (t : WeightTable R width) (index : UInt64) (channel : Nat) (x : R) :
    WeightTable R width :=
  t.modify index fun g => g.setIfInBounds channel x

/-- The parameter at an index, zero where the table holds no group. -/
def param (t : WeightTable R width) (index : UInt64) : R := ((t.group index)[0]?).getD 0

/-- Whether some channel is not zero. -/
def isNonZero (g : Vector R width) : Bool := g.any (· != 0)

/-- The groups that the table holds, in ascending order; all of them in a dense table. -/
def toList (t : WeightTable R width) : List (UInt64 × Vector R width) :=
  match t.layout with
  | .dense => (List.range t.rows).map fun i => (UInt64.ofNat i, t.group (UInt64.ofNat i))
  | .sparse => t.groups.toList

/-- The groups that are not zero, in ascending order. -/
def nonZeroGroups (t : WeightTable R width) : List (UInt64 × Vector R width) :=
  t.groups.toList.filter fun e => isNonZero e.2

def nonZeroIndices (t : WeightTable R width) : List UInt64 := t.nonZeroGroups.map Prod.fst

/-- The first index from `first` on and below `stop` whose group is not zero. -/
def nextNonZero? (t : WeightTable R width) (first stop : UInt64) : Option UInt64 :=
  t.nonZeroIndices.find? fun i => first ≤ i && i < stop && i.toNat < t.rows

/-- Makes every group zero; a sparse table lets go of its groups. -/
def clear (t : WeightTable R width) : WeightTable R width := { t with groups := ∅, masked := by simp }

/-- Equality of tables by their numbers: every group in a dense table, the groups held in a
sparse one. -/
protected def beq (t u : WeightTable R width) : Bool :=
  t.mask == u.mask &&
    match t.layout, u.layout with
    | .dense, .dense =>
      (t.groups.keys ++ u.groups.keys).all fun i => (t.group i).toList == (u.group i).toList
    | .sparse, .sparse =>
      t.groups.keys == u.groups.keys &&
        t.groups.keys.all fun i => (t.group i).toList == (u.group i).toList
    | _, _ => false

instance : BEq (WeightTable R width) := ⟨WeightTable.beq⟩

/-! ## What a table holds after a change -/

@[simp] theorem group_empty (bits : Nat) (layout : Layout) (index : UInt64) :
    (empty bits layout : WeightTable R width).group index = zeroGroup := by
  simp [group, empty]

@[simp] theorem group_clear (t : WeightTable R width) (index : UInt64) :
    t.clear.group index = zeroGroup := by
  simp [group, clear]

omit [Number R] in
@[simp] theorem mask_setGroup (t : WeightTable R width) (index : UInt64) (g : Vector R width) :
    (t.setGroup index g).mask = t.mask := rfl

@[simp] theorem mask_modify (t : WeightTable R width) (index : UInt64)
    (f : Vector R width → Vector R width) : (t.modify index f).mask = t.mask := rfl

/-- Writing a group changes what is read under the same masked index. -/
theorem group_setGroup (t : WeightTable R width) (index other : UInt64) (g : Vector R width) :
    (t.setGroup index g).group other =
      if index &&& t.mask = other &&& t.mask then g else t.group other := by
  simp [group, setGroup, Std.ExtTreeMap.getD_insert]

theorem group_modify (t : WeightTable R width) (index other : UInt64)
    (f : Vector R width → Vector R width) :
    (t.modify index f).group other =
      if index &&& t.mask = other &&& t.mask then f (t.group index) else t.group other :=
  group_setGroup t index other _

end WeightTable

end OnlineLearning
