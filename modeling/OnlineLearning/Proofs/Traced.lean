import Mathlib
import OnlineLearning.Optimizer.Basic
import OnlineLearning.Proofs.Exact

/-!
# Numbers that remember what was divided by

A rule that runs on traced numbers computes as on exact ones, and with every result comes the list
of the divisors on the way to it.

* `Traced`: a number with its divisors; `Traced.plain` is one that comes from outside;
* `Traced.Sound`: no divisor was zero. All operations but divisions keep numbers sound, and
  `Traced.Sound.div` says when a division does;
* `Optimizer.traced`: an optimizer from whose numbers on divisors are remembered.
-/

namespace OnlineLearning

structure Traced (K : Type) where
  value : K
  divisors : List K

namespace Traced

variable {K : Type}

/-- A number on the way to which nothing was divided. -/
def plain (x : K) : Traced K := ⟨x, []⟩

@[simp] theorem value_plain (x : K) : (plain x).value = x := rfl

variable [ExactNumber K]

instance : Number (Traced K) where
  add a b := ⟨a.value + b.value, a.divisors ++ b.divisors⟩
  sub a b := ⟨a.value - b.value, a.divisors ++ b.divisors⟩
  mul a b := ⟨a.value * b.value, a.divisors ++ b.divisors⟩
  div a b := ⟨a.value / b.value, a.divisors ++ b.divisors ++ [b.value]⟩
  neg a := ⟨-a.value, a.divisors⟩
  lt a b := a.value < b.value
  le a b := a.value ≤ b.value
  beq a b := a.value == b.value
  ofNat n := plain n
  decLt a b := inferInstanceAs (Decidable (a.value < b.value))
  decLe a b := inferInstanceAs (Decidable (a.value ≤ b.value))

instance : Scalar (Traced K) where
  sqrt a := ⟨Scalar.sqrt a.value, a.divisors⟩
  exp a := ⟨Scalar.exp a.value, a.divisors⟩
  ln a := ⟨Scalar.ln a.value, a.divisors⟩
  abs a := ⟨Scalar.abs a.value, a.divisors⟩
  isNaN a := Scalar.isNaN a.value
  isFinite a := Scalar.isFinite a.value
  largest := plain Scalar.largest
  totalLe a b := Scalar.totalLe a.value b.value

instance : Widening (Traced K) (Traced K) where
  widen a := a
  narrow a := a

/-! ## Values -/

@[simp] theorem value_ofNat (n : Nat) :
    (@OfNat.ofNat (Traced K) n (Number.instOfNat n)).value = (n : K) := rfl

@[simp] theorem value_add (a b : Traced K) : (a + b).value = a.value + b.value := rfl

@[simp] theorem value_mul (a b : Traced K) : (a * b).value = a.value * b.value := rfl

@[simp] theorem value_div (a b : Traced K) : (a / b).value = a.value / b.value := rfl

@[simp] theorem value_abs (a : Traced K) : (Scalar.abs a).value = |a.value| := rfl

theorem pos_iff (a : Traced K) : 0 < a ↔ 0 < a.value := by
  rw [← Nat.cast_zero]
  exact Iff.rfl

/-! ## Soundness -/

/-- No divisor of a list is zero. -/
def NoZero (divisors : List K) : Prop := ∀ d ∈ divisors, d ≠ 0

/-- Nothing was divided by zero on the way to a number. -/
def Sound (a : Traced K) : Prop := NoZero a.divisors

variable {a b : Traced K}

theorem NoZero.append {xs ys : List K} (hx : NoZero xs) (hy : NoZero ys) : NoZero (xs ++ ys) := by
  intro d hd
  rcases List.mem_append.mp hd with hd | hd
  · exact hx d hd
  · exact hy d hd

theorem sound_plain (x : K) : (plain x).Sound := fun _ h => absurd h List.not_mem_nil

theorem sound_ofNat (n : Nat) : (@OfNat.ofNat (Traced K) n (Number.instOfNat n)).Sound :=
  sound_plain _

theorem Sound.add (ha : a.Sound) (hb : b.Sound) : (a + b).Sound := ha.append hb

theorem Sound.sub (ha : a.Sound) (hb : b.Sound) : (a - b).Sound := ha.append hb

theorem Sound.mul (ha : a.Sound) (hb : b.Sound) : (a * b).Sound := ha.append hb

theorem Sound.div (ha : a.Sound) (hb : b.Sound) (hne : b.value ≠ 0) : (a / b).Sound := by
  refine (ha.append hb).append ?_
  intro d hd
  rwa [List.mem_singleton.mp hd]

theorem Sound.neg (ha : a.Sound) : (-a).Sound := ha

theorem Sound.sqrt (ha : a.Sound) : (Scalar.sqrt a).Sound := ha

theorem Sound.exp (ha : a.Sound) : (Scalar.exp a).Sound := ha

theorem Sound.abs (ha : a.Sound) : (Scalar.abs a).Sound := ha

theorem Sound.maxNum (ha : a.Sound) (hb : b.Sound) : (Scalar.maxNum a b).Sound := by
  unfold Scalar.maxNum
  split
  · exact hb
  · split
    · exact hb
    · exact ha

theorem Sound.minNum (ha : a.Sound) (hb : b.Sound) : (Scalar.minNum a b).Sound := by
  unfold Scalar.minNum
  split
  · exact hb
  · split
    · exact hb
    · exact ha

theorem Sound.correctedExp (ha : a.Sound) : (Scalar.correctedExp a).Sound :=
  (ha.minNum (sound_ofNat 88)).exp

/-- A sign is a number of its own. -/
theorem sound_sign (a : Traced K) : (Scalar.sign a).Sound := by
  unfold Scalar.sign
  split
  · exact sound_ofNat 1
  · split
    · exact (sound_ofNat 1).neg
    · exact sound_ofNat 0

end Traced

/-! ## Traced optimizers -/

variable {K : Type} [ExactNumber K]

def Params.traced (p : Params K) : Params (Traced K) :=
  ⟨.plain p.alpha, .plain p.beta, .plain p.l1, .plain p.l2⟩

def Feature.traced (f : Feature K) : Feature (Traced K) := ⟨f.index, .plain f.value⟩

namespace WeightTable

variable {width : Nat}

def traced (t : WeightTable K width) : WeightTable (Traced K) width :=
  { layout := t.layout
    mask := t.mask
    groups := t.groups.map fun _ g => g.map Traced.plain
    masked := fun index h => t.masked index (Std.ExtTreeMap.mem_of_mem_map h) }

theorem group_traced (t : WeightTable K width) (index : UInt64) :
    t.traced.group index = (t.group index).map Traced.plain := by
  have hzero : (zeroGroup : Vector K width).map Traced.plain = zeroGroup := by
    unfold zeroGroup
    rw [Vector.map_replicate]
    rfl
  simp only [group, Std.ExtTreeMap.getD_eq_getD_getElem?, traced, Std.ExtTreeMap.getElem?_map]
  cases t.groups[index &&& t.mask]? with
  | none => exact hzero.symm
  | some g => rfl

theorem param_traced (t : WeightTable K width) (index : UInt64) :
    t.traced.param index = .plain (t.param index) := by
  rw [param, param, group_traced, Vector.getElem?_map]
  cases (t.group index)[0]? with
  | none => rfl
  | some x => rfl

end WeightTable

/-- The optimizer, from whose numbers on divisors are remembered. -/
def Optimizer.traced (o : Optimizer K K) : Optimizer (Traced K) (Traced K) where
  mode := o.mode
  params := o.params.traced
  weights := o.weights.traced
  stalls := o.stalls
  patience := o.patience
  size := o.size
  totalWeight := .plain o.totalWeight
  normalizedSumNorm := .plain o.normalizedSumNorm
  averageSquaredNorm := .plain o.averageSquaredNorm

end OnlineLearning
