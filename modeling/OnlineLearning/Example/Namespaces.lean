/-!
# Features by namespace

`Namespaces` is a multimap in order of insertion: namespaces stand in the order of their first
registration, the features of each in the order in which they were pushed. A namespace may be
registered and hold no feature.

* `features?_modify`: a change is seen in the namespace that it names alone;
* `indices_modify`: a namespace that is new comes last;
* `empty_union`: a copy of all namespaces into none is the original;
* `mem_toList_append` and `mem_toList_union`: no feature is lost or made up.
-/

namespace OnlineLearning

/-- One hashed feature. -/
structure Feature (R : Type) where
  index : UInt64
  value : R
  deriving BEq, Repr

/-- Namespaces with their features. No name occurs twice. -/
@[ext] structure Namespaces (R : Type) where
  entries : List (UInt8 × List (Feature R))
  distinct : (entries.map Prod.fst).Nodup
  deriving Repr

namespace Namespaces

variable {R : Type}

instance : EmptyCollection (Namespaces R) := ⟨⟨[], List.nodup_nil⟩⟩

instance : Inhabited (Namespaces R) := ⟨∅⟩

/-- The registered namespaces, in order. -/
def indices (n : Namespaces R) : List UInt8 := n.entries.map Prod.fst

/-- The features of a namespace, if it is registered. -/
def features? (n : Namespaces R) (name : UInt8) : Option (List (Feature R)) :=
  n.entries.lookup name

/-- Every feature, namespace by namespace. -/
def toList (n : Namespaces R) : List (Feature R) := n.entries.flatMap Prod.snd

/-- The number of features. -/
def size (n : Namespaces R) : Nat := n.toList.length

/-- Applies `f` to the features of `name` among `entries`; a name that is missing is put at the
end first. -/
def modifyEntries (name : UInt8) (f : List (Feature R) → List (Feature R)) :
    List (UInt8 × List (Feature R)) → List (UInt8 × List (Feature R))
  | [] => [(name, f [])]
  | e :: rest => if e.1 == name then (e.1, f e.2) :: rest else e :: modifyEntries name f rest

theorem map_fst_modifyEntries (name : UInt8) (f : List (Feature R) → List (Feature R))
    (entries : List (UInt8 × List (Feature R))) :
    (modifyEntries name f entries).map Prod.fst =
      if name ∈ entries.map Prod.fst then entries.map Prod.fst
      else entries.map Prod.fst ++ [name] := by
  induction entries with
  | nil => simp [modifyEntries]
  | cons e rest ih =>
    by_cases h : e.1 = name
    · simp [modifyEntries, h]
    · have h' : ¬ name = e.1 := fun hn => h hn.symm
      simp only [modifyEntries, beq_iff_eq, h, if_false, List.map_cons, ih, List.mem_cons, h',
        false_or]
      split <;> rfl

/-- Applies `f` to the features of a namespace, which is registered if it is new. -/
def modify (n : Namespaces R) (name : UInt8) (f : List (Feature R) → List (Feature R)) :
    Namespaces R where
  entries := modifyEntries name f n.entries
  distinct := by
    rw [map_fst_modifyEntries]
    split
    · exact n.distinct
    · rename_i h
      exact List.nodup_append.mpr
        ⟨n.distinct, by simp, fun a ha b hb => by
          rw [List.mem_singleton.mp hb]
          exact fun he => h (he ▸ ha)⟩

/-- Registers a namespace. -/
def register (n : Namespaces R) (name : UInt8) : Namespaces R := n.modify name id

/-- Appends features to a namespace. -/
def append (n : Namespaces R) (name : UInt8) (fs : List (Feature R)) : Namespaces R :=
  n.modify name (· ++ fs)

/-- Appends one feature to a namespace. -/
def push (n : Namespaces R) (name : UInt8) (f : Feature R) : Namespaces R := n.append name [f]

/-- Drops the features of a namespace, which stays registered. -/
def clear (n : Namespaces R) (name : UInt8) : Namespaces R := n.modify name fun _ => []

/-- Appends the features of every namespace of `source`, in its order. -/
def union (n source : Namespaces R) : Namespaces R :=
  source.entries.foldl (fun acc e => acc.append e.1 e.2) n

instance : Union (Namespaces R) := ⟨union⟩

/-! ## What is registered after a change -/

theorem lookup_modifyEntries (name other : UInt8) (f : List (Feature R) → List (Feature R))
    (entries : List (UInt8 × List (Feature R))) :
    (modifyEntries name f entries).lookup other =
      if other = name then some (f ((entries.lookup name).getD [])) else entries.lookup other := by
  induction entries with
  | nil =>
    by_cases h : other = name
    · simp [modifyEntries, h]
    · have : (other == name) = false := beq_false_of_ne h
      simp [modifyEntries, List.lookup_cons, h, this]
  | cons e rest ih =>
    obtain ⟨key, fs⟩ := e
    by_cases hk : key = name
    · subst hk
      by_cases h : other = key
      · simp [modifyEntries, h]
      · have : (other == key) = false := beq_false_of_ne h
        simp [modifyEntries, List.lookup_cons, h, this]
    · have other_key : (name == key) = false := beq_false_of_ne (Ne.symm hk)
      by_cases h : other = key
      · subst h
        simp [modifyEntries, hk]
      · have : (other == key) = false := beq_false_of_ne h
        simp [modifyEntries, List.lookup_cons, hk, other_key, this, ih]

/-- A change is seen in the namespace that it names, and in no other one. -/
theorem features?_modify (n : Namespaces R) (name other : UInt8)
    (f : List (Feature R) → List (Feature R)) :
    (n.modify name f).features? other =
      if other = name then some (f ((n.features? name).getD [])) else n.features? other :=
  lookup_modifyEntries name other f n.entries

/-- A new namespace comes after those that are registered. -/
theorem indices_modify (n : Namespaces R) (name : UInt8)
    (f : List (Feature R) → List (Feature R)) :
    (n.modify name f).indices = if name ∈ n.indices then n.indices else n.indices ++ [name] :=
  map_fst_modifyEntries name f n.entries

/-! ## Copies -/

theorem modifyEntries_of_new {name : UInt8} {f : List (Feature R) → List (Feature R)}
    {entries : List (UInt8 × List (Feature R))} (h : name ∉ entries.map Prod.fst) :
    modifyEntries name f entries = entries ++ [(name, f [])] := by
  induction entries with
  | nil => rfl
  | cons e rest ih =>
    obtain ⟨hne, hrest⟩ : ¬ name = e.1 ∧ name ∉ rest.map Prod.fst := by simpa using h
    have hne' : (e.1 == name) = false := beq_false_of_ne fun he => hne he.symm
    simp [modifyEntries, hne', ih hrest]

/-- Namespaces that are all new are put behind those that are registered. -/
theorem entries_foldl_append (added : List (UInt8 × List (Feature R))) (n : Namespaces R)
    (h : ((n.entries ++ added).map Prod.fst).Nodup) :
    (added.foldl (fun acc e => acc.append e.1 e.2) n).entries = n.entries ++ added := by
  induction added generalizing n with
  | nil => simp
  | cons e rest ih =>
    have hnew : e.1 ∉ n.entries.map Prod.fst := by
      rw [List.map_append, List.nodup_append] at h
      exact fun hmem => h.2.2 _ hmem e.1 (by simp) rfl
    have hstep : (n.append e.1 e.2).entries = n.entries ++ [e] := by
      simp [append, modify, modifyEntries_of_new hnew]
    rw [List.foldl_cons, ih _ (by rw [hstep]; simpa using h), hstep]
    simp

/-- A copy of all namespaces into none is the original. -/
@[simp] theorem empty_union (n : Namespaces R) : (∅ ∪ n : Namespaces R) = n := by
  apply Namespaces.ext
  have h := entries_foldl_append n.entries ∅ (by simpa [EmptyCollection.emptyCollection] using n.distinct)
  simpa [Union.union, union, EmptyCollection.emptyCollection] using h

/-! ## The features after a change -/

theorem mem_flatMap_modifyEntries_append (name : UInt8) (fs : List (Feature R))
    (entries : List (UInt8 × List (Feature R))) (f : Feature R) :
    f ∈ (modifyEntries name (· ++ fs) entries).flatMap Prod.snd ↔
      f ∈ entries.flatMap Prod.snd ∨ f ∈ fs := by
  induction entries with
  | nil => simp [modifyEntries]
  | cons e rest ih =>
    simp only [modifyEntries]
    split
    · simp only [List.flatMap_cons, List.mem_append]
      rw [or_assoc, or_assoc, or_comm (a := f ∈ fs)]
    · rw [List.flatMap_cons, List.mem_append, ih, List.flatMap_cons, List.mem_append, or_assoc]

@[simp] theorem mem_toList_append (n : Namespaces R) (name : UInt8) (fs : List (Feature R))
    (f : Feature R) : f ∈ (n.append name fs).toList ↔ f ∈ n.toList ∨ f ∈ fs :=
  mem_flatMap_modifyEntries_append name fs n.entries f

@[simp] theorem mem_toList_push (n : Namespaces R) (name : UInt8) (g f : Feature R) :
    f ∈ (n.push name g).toList ↔ f ∈ n.toList ∨ f = g := by
  simp [push]

@[simp] theorem mem_toList_union (n source : Namespaces R) (f : Feature R) :
    f ∈ (n ∪ source : Namespaces R).toList ↔ f ∈ n.toList ∨ f ∈ source.toList := by
  change f ∈ (source.entries.foldl (fun acc e => acc.append e.1 e.2) n).toList ↔
    _ ∨ f ∈ source.entries.flatMap Prod.snd
  generalize source.entries = entries
  induction entries generalizing n with
  | nil => simp
  | cons e rest ih =>
    rw [List.foldl_cons, ih, mem_toList_append, List.flatMap_cons, List.mem_append, or_assoc]

end Namespaces

end OnlineLearning
