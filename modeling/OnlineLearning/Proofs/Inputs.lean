import Mathlib.Data.List.Forall2
import OnlineLearning.Hash.Feature
import OnlineLearning.Proofs.Calls

/-!
# Inputs of two runs

Two runs are compared on inputs that differ in nothing but the marks of holdout examples. What nodes
read of a batch besides the marks is then the same.

* `Region` says which features and offsets the examples of a problem have;
* `Marks` are relations between marks, `Marks.Teachable` those under which bandit nodes learn alike;
* `Example.Marked` and `Batch.Marked` are inputs of a problem that differ in their marks;
* `Example.Writes` are the changes that learners make to an example.
-/

namespace OnlineLearning

variable {R β : Type} {mask : UInt64}

/-! ## Regions -/

/-- A problem in a table of mask `mask`: what indices the features of its examples have, by what
offsets they are moved, and which groups they get to. -/
structure Region (mask : UInt64) where
  feature : UInt64 → Prop
  offset : UInt64 → Prop
  group : UInt64 → Prop
  feature_mul {a b} : feature a → feature b → feature (a * fnvPrime ^^^ b)
  group_of {a o} : feature a → offset o → group (a + o &&& mask)

namespace Region

/-- The region without bounds. -/
def whole (mask : UInt64) : Region mask where
  feature _ := True
  offset _ := True
  group _ := True
  feature_mul _ _ := trivial
  group_of _ _ := trivial

/-- Whether an example belongs to a problem. -/
structure Holds (r : Region mask) (ec : Example R) : Prop where
  feature : ∀ f ∈ ec.namespaces.toList, r.feature f.index
  offset : r.offset ec.offset

def HoldsAll (r : Region mask) (batch : Batch R) : Prop := ∀ ec ∈ batch, r.Holds ec

theorem HoldsAll.modify {r : Region mask} {batch : Batch R} (h : r.HoldsAll batch) (i : Nat)
    {g : Example R → Example R} (hg : ∀ ec, r.Holds ec → r.Holds (g ec)) :
    r.HoldsAll (batch.modify i g) := by
  intro ec hmem
  obtain ⟨j, hj, rfl⟩ := List.mem_iff_getElem.mp hmem
  rw [List.getElem_modify]
  split
  · exact hg _ (h _ (List.getElem_mem _))
  · exact h _ (List.getElem_mem _)

@[simp] theorem holds_whole (ec : Example R) : (whole mask).Holds ec :=
  ⟨fun _ _ => trivial, trivial⟩

@[simp] theorem holdsAll_whole (batch : Batch R) : (whole mask).HoldsAll batch :=
  fun ec _ => holds_whole ec

end Region

variable [Scalar R] {r : Region mask}

/-! ## Marks -/

/-- A relation between the marks of two examples, by whether bandit nodes learn from these. -/
abbrev Marks := (trained : Bool) → (mark mark' : Bool) → Prop

namespace Marks

def same : Marks := fun _ mark mark' => mark' = mark

def any : Marks := fun _ _ _ => True

/-- Lines that bandit nodes learn from have the same mark. -/
def sameTrained : Marks := fun trained mark mark' => trained = true → mark' = mark

/-- Relations that a bandit node does not notice while it learns. -/
structure Teachable (M : Marks) : Prop where
  refl : ∀ trained mark, M trained mark mark
  trained : ∀ {mark mark'}, M true mark mark' → mark' = mark

theorem teachable_same : same.Teachable := ⟨fun _ _ => rfl, fun h => h⟩

theorem teachable_sameTrained : sameTrained.Teachable := ⟨fun _ _ _ => rfl, fun h => h rfl⟩

end Marks

/-- Whether a bandit node may learn from a line: an action with an observed cost. -/
def Bandit.trains (ec : Example R) : Bool := isAction ec && ec.hasObservedCost

namespace Example

/-- A new cost is written into the label and nowhere else. -/
theorem exists_setObservedCost_eq (ec : Example R) (cost : R) :
    ∃ label, ec.setObservedCost cost = { ec with label } := by
  unfold setObservedCost
  split
  · exact ⟨ec.label, rfl⟩
  · exact ⟨_, rfl⟩

/-- Examples that differ in nothing but their marks. -/
def Remarked (M : Marks) (ec ec' : Example R) : Prop :=
  ∃ mark, M (Bandit.trains ec) ec.holdout mark ∧ ec' = { ec with holdout := mark }

/-- Examples of a problem that differ in nothing but their marks. -/
structure Marked (M : Marks) (r : Region mask) (ec ec' : Example R) : Prop where
  remarked : ec.Remarked M ec'
  holds : r.Holds ec

/-- Changes of what learners write into an example; marks play no part in them. -/
def Writes (g : Example R → Example R) : Prop :=
  ∀ ec : Example R, ∃ partialPrediction prediction loss generated, ∀ mark,
    g { ec with holdout := mark } =
      { ec with holdout := mark, partialPrediction, prediction, loss, generated }

namespace Marked

variable {M M' : Marks} {ec ec' : Example R}

theorem refl (h : r.Holds ec) : Marked .same r ec ec := ⟨⟨_, rfl, rfl⟩, h⟩

theorem eq (h : Marked .same r ec ec') : ec' = ec := by
  obtain ⟨⟨_, rfl, rfl⟩, -⟩ := h
  rfl

theorem weaken (h : Marked M r ec ec') (hM : ∀ trained mark mark', M trained mark mark' →
    M' trained mark mark') : Marked M' r ec ec' := by
  obtain ⟨⟨mark, hmark, heq⟩, hec⟩ := h
  exact ⟨⟨mark, hM _ _ _ hmark, heq⟩, hec⟩

theorem write (h : Marked M r ec ec') {g : Example R → Example R} (hg : Writes g) :
    Marked M r (g ec) (g ec') := by
  obtain ⟨⟨mark, hmark, rfl⟩, hec⟩ := h
  obtain ⟨partialPrediction, prediction, loss, generated, hwrite⟩ := hg ec
  have hleft : g ec = { ec with partialPrediction, prediction, loss, generated } :=
    hwrite ec.holdout
  rw [hwrite mark, hleft]
  exact ⟨⟨mark, hmark, rfl⟩, hec.feature, hec.offset⟩

end Marked

end Example

/-! ## Batches -/

namespace Batch

/-- Batches of a problem whose lines differ in nothing but their marks. -/
def Marked (M : Marks) (r : Region mask) (batch batch' : Batch R) : Prop :=
  List.Forall₂ (Example.Marked M r) batch batch'

namespace Marked

variable {M M' : Marks} {batch batch' : Batch R}

theorem refl (h : r.HoldsAll batch) : Marked .same r batch batch :=
  List.forall₂_same.mpr fun ec hec => .refl (h ec hec)

theorem eq (h : Marked .same r batch batch') : batch' = batch := by
  induction h with
  | nil => rfl
  | cons hline _ ih => rw [hline.eq, ih]

theorem weaken (h : Marked M r batch batch') (hM : ∀ trained mark mark', M trained mark mark' →
    M' trained mark mark') : Marked M' r batch batch' :=
  h.imp fun _ _ hline => hline.weaken hM

theorem holds (h : Marked M r batch batch') : r.HoldsAll batch := by
  induction h with
  | nil => exact fun _ hec => absurd hec List.not_mem_nil
  | cons hline _ ih =>
    intro ec hec
    rcases List.mem_cons.mp hec with rfl | hec
    · exact hline.holds
    · exact ih ec hec

theorem of_remarked (h : List.Forall₂ (Example.Remarked M) batch batch') :
    Marked M (Region.whole mask) batch batch' :=
  h.imp fun ec _ hline => ⟨hline, Region.holds_whole ec⟩

theorem remarked (h : Marked M r batch batch') : List.Forall₂ (Example.Remarked M) batch batch' :=
  h.imp fun _ _ hline => hline.remarked

theorem isEmpty_eq (h : Marked M r batch batch') : batch'.isEmpty = batch.isEmpty := by
  cases h <;> rfl

theorem modify (h : Marked M r batch batch') (i : Nat) {g : Example R → Example R}
    (hg : ∀ ec ec', Example.Marked M r ec ec' → Example.Marked M r (g ec) (g ec')) :
    Marked M r (batch.modify i g) (batch'.modify i g) := by
  induction h generalizing i with
  | nil =>
    rw [List.modify_nil]
    exact .nil
  | cons hline hrest ih =>
    cases i with
    | zero => exact .cons (hg _ _ hline) hrest
    | succ i => exact .cons hline (ih i)

/-- A line stands against one that is the same but for its mark. -/
theorem getD_eq (h : Marked M r batch batch') (i : Nat) (other : Example R) :
    ∃ mark, batch'.getD i other = { batch.getD i other with holdout := mark } := by
  induction h generalizing i with
  | nil => exact ⟨other.holdout, rfl⟩
  | cons hline _ ih =>
    cases i with
    | zero =>
      obtain ⟨⟨mark, -, rfl⟩, -⟩ := hline
      exact ⟨mark, rfl⟩
    | succ i => exact ih i

theorem flatMap_eq (h : Marked M r batch batch') {f : Example R → List β}
    (hf : ∀ ec mark, f { ec with holdout := mark } = f ec) : batch'.flatMap f = batch.flatMap f := by
  induction h with
  | nil => rfl
  | cons hline _ ih =>
    obtain ⟨⟨mark, -, rfl⟩, -⟩ := hline
    rw [List.flatMap_cons, List.flatMap_cons, hf, ih]

theorem bind_head? (h : Marked M r batch batch') {f : Example R → Option β}
    (hf : ∀ ec mark, f { ec with holdout := mark } = f ec) :
    batch'.head?.bind f = batch.head?.bind f := by
  cases h with
  | nil => rfl
  | cons hline _ =>
    obtain ⟨⟨mark, -, rfl⟩, -⟩ := hline
    exact hf _ mark

variable {p : Example R → Bool}

theorem bind_find? (h : Marked M r batch batch')
    (hp : ∀ ec mark, p { ec with holdout := mark } = p ec) {f : Example R → Option β}
    (hf : ∀ ec mark, f { ec with holdout := mark } = f ec) :
    (batch'.find? p).bind f = (batch.find? p).bind f := by
  induction h with
  | nil => rfl
  | cons hline _ ih =>
    obtain ⟨⟨mark, -, rfl⟩, -⟩ := hline
    rw [List.find?_cons, List.find?_cons, hp]
    split
    · exact hf _ mark
    · exact ih

theorem findIdx?_eq (h : Marked M r batch batch')
    (hp : ∀ ec mark, p { ec with holdout := mark } = p ec) :
    batch'.findIdx? p = batch.findIdx? p := by
  induction h with
  | nil => rfl
  | cons hline _ ih =>
    obtain ⟨⟨mark, -, rfl⟩, -⟩ := hline
    rw [List.findIdx?_cons, List.findIdx?_cons, hp, ih]

end Marked

end Batch

/-! ## Lines with one feature -/

/-- A line with one feature in the namespace `a`. -/
def Example.single (label : Label Float32) (mark : Bool) : Example Float32 :=
  { (Example.blank : Example Float32) with
    namespaces := (∅ : Namespaces Float32).push 0x61 ⟨1, 1⟩
    label
    holdout := mark }

theorem Example.Remarked.single {M : Marks} {label : Label Float32} {mark mark' : Bool}
    (h : M (Bandit.trains (.single label mark)) mark mark') :
    (Example.single label mark).Remarked M (.single label mark') :=
  ⟨mark', h, rfl⟩

/-- A batch with one action, the cost of which was observed, and feedback. -/
def Workspace.clickBatch (h : FeatureHasher) : Batch Float32 :=
  [{ (Example.blank : Example Float32) with
      namespaces := (∅ : Namespaces Float32).push 0x61 ⟨h.hash "a" "x", 1⟩
      label := .bandit [⟨1, 1, 1⟩] },
    { (Example.blank : Example Float32) with
      namespaces := (∅ : Namespaces Float32).push 0x46 ⟨h.hash "F" "click", 1⟩
      role := .feedback }]

end OnlineLearning
