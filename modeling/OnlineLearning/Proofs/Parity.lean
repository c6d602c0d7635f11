import OnlineLearning.Hash.Feature
import OnlineLearning.Proofs.Alike

/-!
# Even and odd indices

A hasher for two problems gives even indices. Products keep them even, an offset of one makes them
odd, and a mask of at least one bit keeps the parity. So the primary policy and the decoder of a
grounded node work in the even and in the odd groups of a table.

* `FeatureHasher.hash_even`: features of a hasher for two problems;
* `Region.even` and `Region.odd`: the two problems;
* `FeatureHasher.Hashed`: batches as the hasher of a workspace makes them, such as
  `Workspace.clickBatch`.
-/

namespace OnlineLearning

/-! ## Parity of words -/

/-- Whether the low bit of an index is clear. -/
def IsEven (i : UInt64) : Prop := i.toNat % 2 = 0

def IsOdd (i : UInt64) : Prop := i.toNat % 2 = 1

theorem not_isOdd {i : UInt64} : ¬ IsOdd i ↔ IsEven i := Nat.mod_two_ne_one

theorem isEven_mul_left {a : UInt64} (b : UInt64) (h : IsEven a) : IsEven (a * b) := by
  unfold IsEven at *
  rw [UInt64.toNat_mul, Nat.mod_mod_of_dvd _ (by decide), Nat.mul_mod, h, Nat.zero_mul,
    Nat.zero_mod]

theorem isEven_mul_two (a : UInt64) : IsEven (a * 2) := by
  rw [UInt64.mul_comm]
  exact isEven_mul_left a rfl

theorem isOdd_add_one {a : UInt64} (h : IsEven a) : IsOdd (a + 1) := by
  unfold IsEven at h
  unfold IsOdd
  rw [UInt64.toNat_add, Nat.mod_mod_of_dvd _ (by decide), Nat.add_mod, h]
  rfl

theorem testBit_zero_of_isEven {a : UInt64} (h : IsEven a) : a.toNat.testBit 0 = false := by
  rw [Nat.testBit_zero, h]
  rfl

theorem isEven_of_testBit {a : UInt64} (h : a.toNat.testBit 0 = false) : IsEven a := by
  rw [Nat.testBit_zero, decide_eq_false_iff_not] at h
  exact not_isOdd.mp h

theorem isEven_xor {a b : UInt64} (ha : IsEven a) (hb : IsEven b) : IsEven (a ^^^ b) := by
  apply isEven_of_testBit
  rw [UInt64.toNat_xor, Nat.testBit_xor, testBit_zero_of_isEven ha, testBit_zero_of_isEven hb]
  rfl

theorem isEven_and {a : UInt64} (mask : UInt64) (ha : IsEven a) : IsEven (a &&& mask) := by
  apply isEven_of_testBit
  rw [UInt64.toNat_and, Nat.testBit_and, testBit_zero_of_isEven ha, Bool.false_and]

theorem isOdd_and {a mask : UInt64} (ha : IsOdd a) (hmask : IsOdd mask) : IsOdd (a &&& mask) := by
  unfold IsOdd at *
  have h : (a &&& mask).toNat.testBit 0 = true := by
    rw [UInt64.toNat_and, Nat.testBit_and, Nat.testBit_zero, Nat.testBit_zero, ha, hmask]
    rfl
  rwa [Nat.testBit_zero, decide_eq_true_iff] at h

/-- A table with at least two groups. -/
theorem isOdd_indexMask {bits : Nat} (h : 1 ≤ bits) (h' : bits ≤ 32) : IsOdd (indexMask bits) := by
  obtain ⟨n, rfl⟩ : ∃ n, bits = n + 1 := ⟨bits - 1, by omega⟩
  have hbound : 2 ^ (n + 1) ≤ 2 ^ 32 := Nat.pow_le_pow_right (by omega) h'
  have hpos : 0 < 2 ^ n := Nat.two_pow_pos n
  have hsize : UInt64.size = 2 ^ 64 := rfl
  unfold IsOdd indexMask
  rw [Nat.pow_eq, UInt64.toNat_ofNat_of_lt' (by omega), Nat.pow_succ]
  omega

theorem FeatureHasher.hash_even (bits : Nat) (name token : String) :
    IsEven ((FeatureHasher.ofBits bits 2).hash name token) :=
  isEven_and _ (isEven_mul_two _)

/-! ## The two problems -/

namespace Region

/-- The problem of the primary policy: even features that are not moved. -/
def even (mask : UInt64) : Region mask where
  feature := IsEven
  offset o := o = 0
  group := IsEven
  feature_mul ha hb := isEven_xor (isEven_mul_left _ ha) hb
  group_of ha ho := by
    rw [ho, UInt64.add_zero]
    exact isEven_and _ ha

/-- The problem of the decoder: even features that are moved by one. -/
def odd (mask : UInt64) (hmask : IsOdd mask) : Region mask where
  feature := IsEven
  offset o := o = 1
  group := IsOdd
  feature_mul ha hb := isEven_xor (isEven_mul_left _ ha) hb
  group_of ha ho := by
    rw [ho]
    exact isOdd_and (isOdd_add_one ha) hmask

end Region

/-- A batch of lines that are not moved, with features of a hasher. -/
structure FeatureHasher.Hashed {R : Type} (h : FeatureHasher) (batch : Batch R) : Prop where
  offset : ∀ ec ∈ batch, ec.offset = 0
  hashed : ∀ ec ∈ batch, ∀ f ∈ ec.namespaces.toList, ∃ name token, f.index = h.hash name token

theorem FeatureHasher.Hashed.holdsAll {R : Type} {bits : Nat} {mask : UInt64} {batch : Batch R}
    (h : (FeatureHasher.ofBits bits 2).Hashed batch) : (Region.even mask).HoldsAll batch := by
  refine fun ec hec => ⟨fun f hf => ?_, h.offset ec hec⟩
  obtain ⟨name, token, heq⟩ := h.hashed ec hec f hf
  rw [heq]
  exact FeatureHasher.hash_even bits name token

namespace Workspace

theorem hashed_clickBatch (h : FeatureHasher) : h.Hashed (clickBatch h) := by
  refine ⟨fun ec hec => ?_, fun ec hec f hf => ?_⟩
  · simp only [clickBatch, List.mem_cons, List.not_mem_nil, or_false] at hec
    rcases hec with rfl | rfl <;> rfl
  · simp only [clickBatch, List.mem_cons, List.not_mem_nil, or_false] at hec
    rcases hec with rfl | rfl
    · rcases (Namespaces.mem_toList_push _ _ _ _).mp hf with hf | rfl
      · exact absurd hf List.not_mem_nil
      · exact ⟨"a", "x", rfl⟩
    · rcases (Namespaces.mem_toList_push _ _ _ _).mp hf with hf | rfl
      · exact absurd hf List.not_mem_nil
      · exact ⟨"F", "click", rfl⟩

end Workspace

end OnlineLearning
