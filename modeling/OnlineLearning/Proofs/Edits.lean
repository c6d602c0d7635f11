import OnlineLearning.Proofs.Combinations

/-!
# Edits of examples

An example is filled by edits: features are pushed, namespaces are registered or emptied, all
namespaces of another example are copied, everything is taken off. What an example holds can be read
off the list of its edits.

* `Namespaces.indices_union` and `Namespaces.featuresIn_union`: what a copy adds;
* `Edit.registered` and `Edit.pushed` read a list of edits;
* `Edit.History` says that namespaces hold what was read, `Edit.History.concat` that an edit keeps
  it so;
* `Example.edited_multimap`: an example is a multimap in order of insertion.
-/

namespace OnlineLearning

variable {R : Type}

/-! ## Namespaces -/

namespace Namespaces

theorem mem_indices_iff {n : Namespaces R} {name : UInt8} :
    name ∈ n.indices ↔ (n.features? name).isSome = true := by
  unfold indices features?
  rw [List.mem_map, List.lookup_isSome_iff]
  simp only [beq_iff_eq, @eq_comm _ name]

theorem features?_eq (n : Namespaces R) (name : UInt8) :
    n.features? name = if name ∈ n.indices then some (n.featuresIn name) else none := by
  simp only [mem_indices_iff, featuresIn]
  cases n.features? name with
  | none => rfl
  | some fs => rfl

/-- The namespaces are their names with their features. -/
theorem entries_eq (n : Namespaces R) :
    n.entries = n.indices.map fun name => (name, n.featuresIn name) := by
  rw [indices, List.map_map]
  refine (List.map_id _).symm.trans (List.map_congr_left fun e he => ?_)
  rw [Function.comp, featuresIn_of_mem he]
  rfl

theorem size_eq (n : Namespaces R) :
    n.size = (n.indices.map fun name => (n.featuresIn name).length).sum := by
  rw [size, toList_eq_flatMap, List.length_flatMap]

theorem featuresIn_modify (n : Namespaces R) (name other : UInt8)
    (f : List (Feature R) → List (Feature R)) :
    (n.modify name f).featuresIn other =
      if other = name then f (n.featuresIn name) else n.featuresIn other := by
  unfold featuresIn
  rw [features?_modify]
  split <;> rfl

/-- A copy registers the namespaces of the source that are new, in the order of the source. -/
theorem indices_union (n source : Namespaces R) :
    (n ∪ source).indices = n.indices ++ source.indices.filter fun name => name ∉ n.indices := by
  change (source.entries.foldl (fun acc e => acc.append e.1 e.2) n).indices =
    n.indices ++ (source.entries.map Prod.fst).filter fun name => name ∉ n.indices
  have hdistinct := source.distinct
  generalize source.entries = entries at hdistinct
  induction entries generalizing n with
  | nil => simp
  | cons e rest ih =>
    obtain ⟨hfirst, hrest⟩ := List.nodup_cons.mp hdistinct
    rw [List.foldl_cons, ih _ hrest, append, indices_modify, List.map_cons]
    by_cases he : e.1 ∈ n.indices
    · rw [if_pos he, List.filter_cons_of_neg (by simpa using he)]
    · have hlater : (rest.map Prod.fst).filter (fun name => name ∉ n.indices ++ [e.1]) =
          (rest.map Prod.fst).filter fun name => name ∉ n.indices := by
        refine List.filter_congr fun name hname => decide_eq_decide.mpr ?_
        have hne : name ≠ e.1 := fun heq => hfirst (heq ▸ hname)
        simp [hne]
      rw [if_neg he, List.filter_cons_of_pos (by simpa using he), hlater, List.append_assoc,
        List.singleton_append]

/-- A copy puts the features of the source behind those that are there. -/
theorem featuresIn_union (n source : Namespaces R) (name : UInt8) :
    (n ∪ source).featuresIn name = n.featuresIn name ++ source.featuresIn name := by
  change (source.entries.foldl (fun acc e => acc.append e.1 e.2) n).featuresIn name =
    n.featuresIn name ++ (source.entries.lookup name).getD []
  have hdistinct := source.distinct
  generalize source.entries = entries at hdistinct
  induction entries generalizing n with
  | nil => exact (List.append_nil _).symm
  | cons e rest ih =>
    obtain ⟨hfirst, hrest⟩ := List.nodup_cons.mp hdistinct
    rw [List.foldl_cons, ih _ hrest, append, featuresIn_modify, List.lookup_cons]
    by_cases he : name = e.1
    · have hlater : rest.lookup name = none := by
        refine List.lookup_eq_none_iff.mpr fun p hp => bne_iff_ne.mpr fun heq => hfirst ?_
        rw [← he, heq]
        exact List.mem_map_of_mem hp
      rw [if_pos he, hlater, he, beq_self_eq_true, Option.getD_none, List.append_nil,
        Option.getD_some]
    · rw [if_neg he, beq_false_of_ne he]

end Namespaces

/-! ## First occurrences -/

section

variable {α : Type} [BEq α] [LawfulBEq α] {names added : List α}

theorem eraseDups_of_nodup (h : names.Nodup) : names.eraseDups = names := by
  induction names with
  | nil => rfl
  | cons name rest ih =>
    obtain ⟨hfirst, hrest⟩ := List.nodup_cons.mp h
    have hkept : rest.filter (fun other => !other == name) = rest :=
      List.filter_eq_self.mpr fun other hother => by
        simpa using fun heq : other = name => hfirst (heq ▸ hother)
    rw [List.eraseDups_cons, hkept, ih hrest]

/-- First occurrences in a longer list. -/
theorem eraseDups_append_of_nodup (h : added.Nodup) :
    (names ++ added).eraseDups = names.eraseDups ++ added.filter fun name => name ∉ names := by
  have hnew : added.removeAll names = added.filter fun name => name ∉ names := by
    refine List.filter_congr fun name _ => ?_
    rw [List.elem_eq_mem, decide_not]
  rw [List.eraseDups_append, hnew, eraseDups_of_nodup (h.filter _)]

end

/-! ## Edits -/

/-- An edit of the features of an example. -/
inductive Edit (R : Type) where
  | push (name : UInt8) (f : Feature R)
  | register (name : UInt8)
  /-- Registers a namespace and drops its features. -/
  | empty (name : UInt8)
  | copy (source : Example R)
  | clear

namespace Edit

/-- What an edit does to an example. -/
def apply [Scalar R] (ec : Example R) : Edit R → Example R
  | push name f => ec.push name f
  | register name => { ec with namespaces := ec.namespaces.register name }
  | empty name => { ec with namespaces := ec.namespaces.clear name }
  | copy source => ec.copyNamespaces source
  | clear => ec.clear

def isClear : Edit R → Bool
  | clear => true
  | _ => false

/-- Whether an edit drops the features of a namespace. -/
def drops (name : UInt8) : Edit R → Bool
  | empty other => other == name
  | clear => true
  | _ => false

/-- The namespaces that an edit asks for, in order. -/
def registers : Edit R → List UInt8
  | push name _ => [name]
  | register name => [name]
  | empty name => [name]
  | copy source => source.namespaces.indices
  | clear => []

/-- The features that an edit pushes to a namespace, in order. -/
def pushes (name : UInt8) : Edit R → List (Feature R)
  | push other f => if other = name then [f] else []
  | copy source => source.namespaces.featuresIn name
  | _ => []

/-- The namespaces that were asked for since the last clearing, in order. -/
def registered (edits : List (Edit R)) : List UInt8 :=
  (edits.rtakeWhile fun e => !e.isClear).flatMap registers

/-- The features that were pushed to a namespace since it was last dropped, in order. -/
def pushed (name : UInt8) (edits : List (Edit R)) : List (Feature R) :=
  (edits.rtakeWhile fun e => !e.drops name).flatMap (pushes name)

theorem registered_concat (edits : List (Edit R)) (e : Edit R) :
    registered (edits ++ [e]) = if e.isClear then [] else registered edits ++ e.registers := by
  unfold registered
  rw [List.rtakeWhile_concat]
  cases e.isClear with
  | true => rfl
  | false => simp

theorem pushed_concat (name : UInt8) (edits : List (Edit R)) (e : Edit R) :
    pushed name (edits ++ [e]) =
      if e.drops name then [] else pushed name edits ++ e.pushes name := by
  unfold pushed
  rw [List.rtakeWhile_concat]
  cases e.drops name with
  | true => rfl
  | false => simp

/-- The namespaces of an example hold what its edits say. -/
structure History (n : Namespaces R) (edits : List (Edit R)) : Prop where
  indices : n.indices = (registered edits).eraseDups
  featuresIn : ∀ name, n.featuresIn name = pushed name edits

namespace History

variable {n : Namespaces R} {edits : List (Edit R)}

theorem nil : History (∅ : Namespaces R) [] := ⟨rfl, fun _ => rfl⟩

theorem mem_indices (h : History n edits) {name : UInt8} :
    name ∈ n.indices ↔ name ∈ registered edits := by
  rw [h.indices, List.mem_eraseDups]

/-- An edit of one namespace, which leaves the others. -/
theorem modify (h : History n edits) {e : Edit R} {name : UInt8}
    {f : List (Feature R) → List (Feature R)} (hclear : e.isClear = false)
    (hregisters : e.registers = [name])
    (hothers : ∀ other, other ≠ name → e.drops other = false ∧ e.pushes other = [])
    (hname : ∀ fs, (if e.drops name then [] else fs ++ e.pushes name) = f fs) :
    History (n.modify name f) (edits ++ [e]) where
  indices := by
    rw [Namespaces.indices_modify, registered_concat, hclear, if_neg Bool.false_ne_true, hregisters,
      eraseDups_append_of_nodup (List.nodup_singleton name), ← h.indices]
    by_cases hold : name ∈ registered edits
    · rw [if_pos (h.mem_indices.mpr hold), List.filter_cons_of_neg (by simpa using hold),
        List.filter_nil, List.append_nil]
    · rw [if_neg (mt h.mem_indices.mp hold), List.filter_cons_of_pos (by simpa using hold),
        List.filter_nil]
  featuresIn other := by
    rw [Namespaces.featuresIn_modify, pushed_concat, h.featuresIn, h.featuresIn]
    by_cases heq : other = name
    · rw [if_pos heq, heq, hname]
    · obtain ⟨hdrops, hpushes⟩ := hothers other heq
      rw [if_neg heq, hdrops, if_neg Bool.false_ne_true, hpushes, List.append_nil]

theorem copy (h : History n edits) (source : Example R) :
    History (n ∪ source.namespaces) (edits ++ [.copy source]) where
  indices := by
    have hnew : (source.namespaces.indices.filter fun name => name ∉ n.indices) =
        source.namespaces.indices.filter fun name => name ∉ registered edits :=
      List.filter_congr fun name _ => decide_eq_decide.mpr (not_congr h.mem_indices)
    rw [Namespaces.indices_union, registered_concat, hnew, h.indices]
    exact (eraseDups_append_of_nodup source.namespaces.distinct).symm
  featuresIn name := by
    rw [Namespaces.featuresIn_union, pushed_concat, h.featuresIn]
    rfl

/-- An edit keeps what the edits say. -/
theorem concat [Scalar R] {ec : Example R} (h : History ec.namespaces edits) (e : Edit R) :
    History (e.apply ec).namespaces (edits ++ [e]) := by
  cases e with
  | push name f =>
    exact h.modify rfl rfl (fun other hne => ⟨rfl, if_neg hne.symm⟩)
      fun fs => congrArg (fs ++ ·) (if_pos rfl)
  | register name => exact h.modify rfl rfl (fun _ _ => ⟨rfl, rfl⟩) List.append_nil
  | empty name =>
    exact h.modify rfl rfl (fun other hne => ⟨beq_false_of_ne hne.symm, rfl⟩)
      fun fs => if_pos (beq_self_eq_true name)
  | copy source => exact h.copy source
  | clear =>
    refine ⟨?_, fun name => ?_⟩
    · rw [registered_concat]
      rfl
    · rw [pushed_concat]
      rfl

end History

end Edit

namespace Example

open Edit

/-- An example that was new before the edits. -/
def edited [Scalar R] (edits : List (Edit R)) : Example R := edits.foldl Edit.apply blank

theorem history_edited [Scalar R] (edits : List (Edit R)) :
    Edit.History (edited edits : Example R).namespaces edits := by
  induction edits using List.reverseRecOn with
  | nil => exact .nil
  | append_singleton before e ih =>
    unfold edited at ih ⊢
    rw [List.foldl_append]
    exact ih.concat e

/-- An example is a multimap in order of insertion. Whatever edits were made of a new one, no
namespace is registered twice, the namespaces stand in the order in which they were first asked for
since the last clearing, and each holds the features that were pushed to it since they were last
dropped, in order. To copy another example puts its features behind those of each namespace and its
new namespaces, in its order, behind the others. The features are counted namespace by namespace. -/
theorem edited_multimap [Scalar R] (edits : List (Edit R)) :
    let ec : Example R := edited edits
    let n := ec.namespaces
    n.indices.Nodup ∧
    n.indices = (registered edits).eraseDups ∧
    (∀ name, n.features? name =
      if name ∈ registered edits then some (pushed name edits) else none) ∧
    n.entries = n.indices.map (fun name => (name, pushed name edits)) ∧
    (∀ source : Example R,
      let copied := (ec.copyNamespaces source).namespaces
      copied.indices =
        n.indices ++ source.namespaces.indices.filter (fun name => name ∉ n.indices) ∧
      ∀ name, copied.featuresIn name = n.featuresIn name ++ source.namespaces.featuresIn name) ∧
    ec.numFeatures = (n.indices.map fun name => (pushed name edits).length).sum := by
  have h := history_edited edits
  intro ec n
  have hfeatures (name : UInt8) : n.featuresIn name = pushed name edits := h.featuresIn name
  refine ⟨n.distinct, h.indices, fun name => ?_, ?_, fun source => ⟨?_, ?_⟩, ?_⟩
  · rw [n.features?_eq, hfeatures]
    by_cases hname : name ∈ registered edits
    · rw [if_pos hname, if_pos (h.mem_indices.mpr hname)]
    · rw [if_neg hname, if_neg (mt h.mem_indices.mp hname)]
  · rw [n.entries_eq]
    simp only [hfeatures]
  · exact n.indices_union source.namespaces
  · exact n.featuresIn_union source.namespaces
  · change n.size = _
    rw [n.size_eq]
    simp only [hfeatures]

/-- A namespace that was emptied keeps its place. -/
example :
    let edits : List (Edit Float32) :=
      [.push 97 ⟨1, 1⟩, .register 98, .push 97 ⟨2, 1⟩, .empty 97, .push 99 ⟨3, 1⟩, .push 97 ⟨4, 1⟩]
    (edited edits).namespaces.entries.map (fun e => (e.1, e.2.map Feature.index)) =
      [(97, [4]), (98, []), (99, [3])] := by
  decide

end Example

end OnlineLearning
