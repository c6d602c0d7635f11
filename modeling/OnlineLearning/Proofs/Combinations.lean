import Mathlib
import OnlineLearning.Optimizer.Basic

/-!
# The products of interactions

A term multiplies combinations of features, one of each of its namespaces in their order. Where
neighbours stand in one namespace, their positions do not decrease. The products come in the
lexicographic order of positions.

* `choices` lists the ways to take one entry of each of several lists; `pairwise_choices` says in
  which order;
* `Namespaces.combinations` lists what a term multiplies, `Namespaces.mem_combinations` says what is
  among it, and `Namespaces.expand_eq` that products are made of nothing else;
* `Namespaces.length_combinations` counts the combinations by the sizes of namespaces;
* `Example.visits_exact`: the features that a learner sees, and the number that it notes down.
-/

namespace OnlineLearning

/-! ## Choices -/

section

variable {α : Type}

/-- The ways to take one entry of each list. -/
def choices : List (List α) → List (List α)
  | [] => [[]]
  | entries :: rest => entries.flatMap fun x => (choices rest).map (x :: ·)

theorem mem_choices {c : List α} {lists : List (List α)} :
    c ∈ choices lists ↔ List.Forall₂ (· ∈ ·) c lists := by
  induction lists generalizing c with
  | nil => simp [choices]
  | cons entries rest ih =>
    simp only [choices, List.mem_flatMap, List.mem_map, ih, List.forall₂_cons_right_iff]
    constructor
    · rintro ⟨x, hx, d, hd, rfl⟩
      exact ⟨x, d, hx, hd, rfl⟩
    · rintro ⟨x, d, hx, hd, rfl⟩
      exact ⟨x, hx, d, hd, rfl⟩

/-- Choices from ascending lists come in lexicographic order. -/
theorem pairwise_choices {r : α → α → Prop} {lists : List (List α)}
    (h : ∀ entries ∈ lists, entries.Pairwise r) : (choices lists).Pairwise (List.Lex r) := by
  induction lists with
  | nil => exact List.pairwise_singleton _ _
  | cons entries rest ih =>
    obtain ⟨hentries, hrest⟩ := List.forall_mem_cons.mp h
    refine List.pairwise_flatMap.mpr ⟨?_, hentries.imp ?_⟩
    · intro x _
      exact List.pairwise_map.mpr ((ih hrest).imp .cons)
    · intro x y hxy c hc d hd
      obtain ⟨c, -, rfl⟩ := List.mem_map.mp hc
      obtain ⟨d, -, rfl⟩ := List.mem_map.mp hd
      exact .rel hxy

end

/-! ## Combinations -/

/-- A feature that is multiplied, with the namespace in which it stands and its position there. -/
structure Factor (R : Type) where
  name : UInt8
  position : Nat
  feature : Feature R

variable {R : Type}

/-- Which factor may come next to another one: within a namespace, none that stands before it. -/
def Factor.Precedes (p q : Factor R) : Prop := p.name = q.name → p.position ≤ q.position

instance (p q : Factor R) : Decidable (p.Precedes q) := inferInstanceAs (Decidable (_ → _))

/-- Factors in the order in which they are multiplied. -/
abbrev Combination (R : Type) := List (Factor R)

namespace Combination

/-- Neighbours in one namespace stand in order. -/
def Ascending (c : Combination R) : Prop := c.IsChain Factor.Precedes

instance (c : Combination R) : Decidable c.Ascending :=
  inferInstanceAs (Decidable (List.IsChain _ _))

theorem ascending_cons_cons {p q : Factor R} {c : Combination R} :
    Ascending (p :: q :: c) ↔ p.Precedes q ∧ Ascending (q :: c) := List.isChain_cons_cons

def positions (c : Combination R) : List Nat := c.map Factor.position

/-- The hash of the indices, one after another: it is multiplied and takes the next one in. -/
def index (c : Combination R) : UInt64 :=
  c.foldl (fun hash p => hash * fnvPrime ^^^ p.feature.index) 0

variable [Scalar R]

/-- The values multiplied from left to right. -/
def value : Combination R → R
  | [] => 0
  | p :: rest => rest.foldl (fun v q => v * q.feature.value) p.feature.value

def product (c : Combination R) : Feature R := ⟨c.index, c.value⟩

/-- Factor by factor, a product is made as interactions make it. -/
theorem product_cons (p : Factor R) (rest : Combination R) :
    product (p :: rest) = rest.foldl (fun f q => f.mul q.feature) p.feature := by
  have hfrom (f : Feature R) :
      (⟨rest.foldl (fun hash q => hash * fnvPrime ^^^ q.feature.index) f.index,
        rest.foldl (fun v q => v * q.feature.value) f.value⟩ : Feature R) =
      rest.foldl (fun f q => f.mul q.feature) f := by
    induction rest generalizing f with
    | nil => rfl
    | cons q rest ih => exact ih (f.mul q.feature)
  rw [← hfrom, product, index, List.foldl_cons, UInt64.zero_mul, UInt64.zero_xor]
  rfl

end Combination

namespace Namespaces

open Interaction (start)

/-- The features of a namespace; none if it is not registered. -/
def featuresIn (n : Namespaces R) (name : UInt8) : List (Feature R) := (n.features? name).getD []

/-- The features of a namespace as factors. -/
def factors (n : Namespaces R) (name : UInt8) : List (Factor R) :=
  (n.featuresIn name).zipIdx.map fun (f, i) => ⟨name, i, f⟩

/-- The combinations that a term multiplies. -/
def combinations (n : Namespaces R) (term : Term) : List (Combination R) :=
  if term.length = 2 ∨ term.length = 3 then
    (choices (term.map n.factors)).filter fun c => c.Ascending
  else []

theorem featuresIn_of_mem {n : Namespaces R} {e : UInt8 × List (Feature R)} (he : e ∈ n.entries) :
    n.featuresIn e.1 = e.2 := by
  have hlookup (entries : List (UInt8 × List (Feature R))) (h : (entries.map Prod.fst).Nodup)
      (he : e ∈ entries) : entries.lookup e.1 = some e.2 := by
    induction entries with
    | nil => cases he
    | cons first rest ih =>
      obtain ⟨hnew, hrest⟩ := List.nodup_cons.mp h
      rcases List.mem_cons.mp he with rfl | he
      · exact List.lookup_cons_self
      · have hne : e.1 ≠ first.1 := fun heq => hnew (heq ▸ List.mem_map_of_mem he)
        rw [List.lookup_cons, beq_false_of_ne hne]
        exact ih hrest he
  rw [featuresIn, features?, hlookup n.entries n.distinct he, Option.getD_some]

theorem toList_eq_flatMap (n : Namespaces R) : n.toList = n.indices.flatMap n.featuresIn := by
  rw [toList, indices, List.flatMap_map, List.flatMap_def, List.flatMap_def]
  exact congrArg List.flatten (List.map_congr_left fun e he => (featuresIn_of_mem he).symm)

theorem mem_factors {n : Namespaces R} {name : UInt8} {p : Factor R} :
    p ∈ n.factors name ↔
      p.name = name ∧ (n.featuresIn name)[p.position]? = some p.feature := by
  obtain ⟨name', i, f⟩ := p
  simp only [factors, List.mem_map, Factor.mk.injEq, Prod.exists]
  constructor
  · rintro ⟨f, i, hmem, rfl, rfl, rfl⟩
    exact ⟨rfl, List.mem_zipIdx_iff_getElem?.mp hmem⟩
  · rintro ⟨rfl, hfeature⟩
    exact ⟨f, i, List.mem_zipIdx_iff_getElem?.mpr hfeature, rfl, rfl, rfl⟩

theorem pairwise_factors (n : Namespaces R) (name : UInt8) :
    (n.factors name).Pairwise fun p q => p.position < q.position := by
  have hpositions : ((n.featuresIn name).zipIdx.map Prod.snd).Pairwise (· < ·) := by
    rw [List.zipIdx_map_snd]
    exact List.pairwise_lt_range'
  exact List.pairwise_map.mpr (List.pairwise_map.mp hpositions)

theorem mem_combinations {n : Namespaces R} {term : Term} {c : Combination R} :
    c ∈ n.combinations term ↔ (term.length = 2 ∨ term.length = 3) ∧ c.map Factor.name = term ∧
      (∀ p ∈ c, (n.featuresIn p.name)[p.position]? = some p.feature) ∧ c.Ascending := by
  have hchoice (term : Term) : c ∈ choices (term.map n.factors) ↔ c.map Factor.name = term ∧
      ∀ p ∈ c, (n.featuresIn p.name)[p.position]? = some p.feature := by
    rw [mem_choices, List.forall₂_map_right_iff]
    induction c generalizing term with
    | nil => simp [eq_comm]
    | cons p rest ih =>
      rw [List.forall₂_cons_left_iff]
      simp only [ih]
      simp only [mem_factors, List.map_cons, List.forall_mem_cons]
      constructor
      · rintro ⟨name, names, ⟨rfl, hp⟩, ⟨rfl, hrest⟩, rfl⟩
        exact ⟨rfl, hp, hrest⟩
      · rintro ⟨rfl, hp, hrest⟩
        exact ⟨p.name, _, ⟨rfl, hp⟩, ⟨rfl, hrest⟩, rfl⟩
  unfold combinations
  split
  · rename_i hlength
    simp [hchoice, hlength, and_assoc]
  · rename_i hlength
    simp [hlength]

/-- The combinations of a term come in the lexicographic order of positions. -/
theorem pairwise_combinations (n : Namespaces R) (term : Term) :
    ((n.combinations term).map Combination.positions).Pairwise (· < ·) := by
  have hlex {c d : Combination R} (h : List.Lex (fun p q => p.position < q.position) c d) :
      c.positions < d.positions := by
    induction h with
    | nil => exact .nil
    | rel h => exact .rel h
    | cons _ ih => exact .cons ih
  refine List.pairwise_map.mpr ?_
  unfold combinations
  split
  · refine (List.Pairwise.filter _ (pairwise_choices ?_)).imp hlex
    intro entries hentries
    obtain ⟨name, -, rfl⟩ := List.mem_map.mp hentries
    exact n.pairwise_factors name
  · exact List.Pairwise.nil

/-! ## Loops over factors -/

theorem drop_zipIdx (fs : List (Feature R)) (first : Nat) :
    fs.zipIdx.drop first = fs.zipIdx.filter fun e => first ≤ e.2 := by
  have hfrom (fs : List (Feature R)) (k first : Nat) :
      (fs.zipIdx k).drop first = (fs.zipIdx k).filter fun e => k + first ≤ e.2 := by
    induction fs generalizing k first with
    | nil => simp
    | cons f rest ih =>
      cases first with
      | zero =>
        refine (List.filter_eq_self.mpr ?_).symm
        rintro ⟨g, j⟩ hmem
        simpa using (List.mem_zipIdx hmem).1
      | succ first =>
        rw [List.zipIdx_cons, List.drop_succ_cons, List.filter_cons_of_neg (by simp), ih]
        simp only [Nat.add_assoc, Nat.add_comm 1 first]
  simpa using hfrom fs 0 first

/-- What may come next to a factor in a namespace is the end of it from a position on. -/
theorem filter_precedes (n : Namespaces R) (p : Factor R) (name : UInt8) :
    ((n.factors name).filter fun q => p.Precedes q) =
      ((n.featuresIn name).zipIdx.drop (start (p.name == name) p.position)).map
        fun (f, i) => ⟨name, i, f⟩ := by
  unfold factors
  rw [List.filter_map]
  congr 1
  by_cases h : p.name = name
  · simp [h, start, drop_zipIdx, Factor.Precedes, Function.comp_def]
  · simp [h, start, Factor.Precedes, Function.comp_def]

/-- The ways to go on from a factor. -/
def continuations (p : Factor R) (lists : List (List (Factor R))) : List (Combination R) :=
  (choices lists).filter fun c => Combination.Ascending (p :: c)

theorem filter_choices_cons (entries : List (Factor R)) (rest : List (List (Factor R))) :
    ((choices (entries :: rest)).filter fun c => Combination.Ascending c) =
      entries.flatMap fun p => (continuations p rest).map (p :: ·) := by
  simp only [choices, List.filter_flatMap, List.filter_map]
  rfl

theorem continuations_nil (p : Factor R) : continuations p [] = [[]] := by
  simp [continuations, choices, Combination.Ascending]

theorem continuations_cons (p : Factor R) (entries : List (Factor R))
    (rest : List (List (Factor R))) :
    continuations p (entries :: rest) = (entries.filter fun q => p.Precedes q).flatMap
      fun q => (continuations q rest).map (q :: ·) := by
  unfold continuations
  rw [choices]
  simp only [List.filter_flatMap, List.filter_map, Function.comp_def,
    Combination.ascending_cons_cons]
  induction entries with
  | nil => rfl
  | cons q entries ih =>
    rw [List.flatMap_cons, ih]
    by_cases h : p.Precedes q
    · simp [h]
    · simp [h]

theorem continuations_singleton (p : Factor R) (entries : List (Factor R)) :
    continuations p [entries] = (entries.filter fun q => p.Precedes q).map ([·]) := by
  rw [continuations_cons, List.map_eq_flatMap]
  simp only [continuations_nil, List.map_cons, List.map_nil]

/-- A term of two places is two loops. -/
theorem combinations_pair (n : Namespaces R) (a b : UInt8) :
    n.combinations [a, b] = (n.factors a).flatMap fun p =>
      ((n.factors b).filter fun q => p.Precedes q).map fun q => [p, q] := by
  rw [combinations, if_pos (.inl rfl), List.map_cons, filter_choices_cons]
  simp only [List.map_cons, List.map_nil, continuations_singleton, List.map_map, Function.comp_def]

/-- A term of three places is three loops. -/
theorem combinations_triple (n : Namespaces R) (a b c : UInt8) :
    n.combinations [a, b, c] = (n.factors a).flatMap fun p =>
      ((n.factors b).filter fun q => p.Precedes q).flatMap fun q =>
        ((n.factors c).filter fun r => q.Precedes r).map fun r => [p, q, r] := by
  rw [combinations, if_pos (.inr rfl), List.map_cons, filter_choices_cons]
  simp only [List.map_cons, List.map_nil, continuations_cons _ (n.factors b),
    continuations_singleton, List.map_flatMap, List.map_map, Function.comp_def]

/-! ## Products -/

theorem map_fst_drop_zipIdx (fs : List (Feature R)) (first : Nat) :
    (fs.zipIdx.drop first).map Prod.fst = fs.drop first := by
  rw [List.map_drop, List.zipIdx_map_fst]

section

variable [Scalar R]

theorem map_product_pair (n : Namespaces R) (a b : UInt8) :
    (n.combinations [a, b]).map Combination.product =
      Interaction.pairs (a == b) (n.featuresIn a) (n.featuresIn b) := by
  rw [combinations_pair]
  simp only [filter_precedes, List.map_flatMap, List.map_map]
  rw [factors, List.flatMap_map]
  unfold Interaction.pairs
  congr 1
  funext ⟨f, i⟩
  dsimp only
  rw [← map_fst_drop_zipIdx, List.map_map]
  refine List.map_congr_left ?_
  rintro ⟨g, j⟩ -
  change Combination.product [⟨a, i, f⟩, ⟨b, j, g⟩] = f.mul g
  rw [Combination.product_cons]
  rfl

theorem map_product_triple (n : Namespaces R) (a b c : UInt8) :
    (n.combinations [a, b, c]).map Combination.product =
      Interaction.triples (a == b) (b == c) (n.featuresIn a) (n.featuresIn b)
        (n.featuresIn c) := by
  rw [combinations_triple]
  simp only [filter_precedes, List.map_flatMap, List.flatMap_map, List.map_map]
  rw [factors, List.flatMap_map]
  unfold Interaction.triples
  congr 1
  funext ⟨f, i⟩
  dsimp only
  congr 1
  funext ⟨g, j⟩
  dsimp only
  rw [← map_fst_drop_zipIdx, List.map_map]
  refine List.map_congr_left ?_
  rintro ⟨h, k⟩ -
  change Combination.product [⟨a, i, f⟩, ⟨b, j, g⟩, ⟨c, k, h⟩] = (f.mul g).mul h
  rw [Combination.product_cons]
  rfl

/-- A term adds the products of its combinations, one after another. -/
theorem expand_eq (n : Namespaces R) (term : Term) :
    Interaction.expand n term = (n.combinations term).map Combination.product := by
  match term with
  | [] | [_] | _ :: _ :: _ :: _ :: _ => rfl
  | [a, b] =>
    rw [map_product_pair, Interaction.expand, featuresIn, featuresIn]
    cases n.features? a <;> cases n.features? b <;> simp [Interaction.pairs]
  | [a, b, c] =>
    rw [map_product_triple, Interaction.expand, featuresIn, featuresIn, featuresIn]
    cases n.features? a <;> cases n.features? b <;> cases n.features? c <;>
      simp [Interaction.triples]

end

end Namespaces

/-! ## Numbers of combinations -/

/-- The number of products of a term, by the sizes of its namespaces. -/
def Term.count (size : UInt8 → Nat) : Term → Nat
  | [a, b] => if a = b then size a * (size a + 1) / 2 else size a * size b
  | [a, b, c] =>
    if a = b then
      if b = c then size a * (size a + 1) * (size a + 2) / 6
      else size a * (size a + 1) / 2 * size c
    else if b = c then size a * (size b * (size b + 1) / 2)
    else size a * size b * size c
  | _ => 0

/-- Chains of `k + 1` positions that do not decrease, by their first position. -/
theorem sum_multichoose (n k : Nat) :
    ((List.range n).map fun i => (n - i).multichoose k).sum = n.multichoose (k + 1) := by
  induction n with
  | zero => simp
  | succ n ih =>
    rw [List.range_succ_eq_map, List.map_cons, List.sum_cons, List.map_map,
      Nat.multichoose_succ_succ, ← ih, Nat.sub_zero, Nat.add_comm]
    simp [Function.comp_def]

theorem multichoose_two_right (n : Nat) : n.multichoose 2 = n * (n + 1) / 2 := by
  rw [Nat.multichoose_eq, Nat.choose_two_right]
  cases n <;> simp [mul_comm]

theorem multichoose_three_right (n : Nat) : n.multichoose 3 = n * (n + 1) * (n + 2) / 6 := by
  rw [Nat.multichoose_eq, Nat.choose_eq_descFactorial_div_factorial]
  congr 1
  simp [Nat.descFactorial]
  ring

namespace Namespaces

open Interaction (start)

theorem map_position_factors (n : Namespaces R) (name : UInt8) :
    (n.factors name).map Factor.position = List.range (n.featuresIn name).length := by
  rw [factors, List.map_map, List.range_eq_range', ← List.zipIdx_map_snd 0 (n.featuresIn name)]
  rfl

theorem map_position_filter_precedes (n : Namespaces R) (p : Factor R) (name : UInt8) :
    let first := start (p.name == name) p.position
    ((n.factors name).filter fun q => p.Precedes q).map Factor.position =
      (List.range ((n.featuresIn name).length - first)).map (first + ·) := by
  intro first
  have hpositions : ((n.featuresIn name).zipIdx.drop first).map Prod.snd =
      List.range' first ((n.featuresIn name).length - first) := by
    rw [List.map_drop, List.zipIdx_map_snd, List.drop_range', Nat.zero_add, Nat.mul_one]
  rw [filter_precedes, List.map_map, ← List.range'_eq_map_range, ← hpositions]
  rfl

theorem length_filter_precedes (n : Namespaces R) (p : Factor R) (name : UInt8) :
    ((n.factors name).filter fun q => p.Precedes q).length =
      (n.featuresIn name).length - start (p.name == name) p.position := by
  simpa using congrArg List.length (n.map_position_filter_precedes p name)

theorem length_combinations_pair (n : Namespaces R) (a b : UInt8) :
    (n.combinations [a, b]).length = ((List.range (n.featuresIn a).length).map fun i =>
      (n.featuresIn b).length - start (a == b) i).sum := by
  rw [combinations_pair, List.length_flatMap, ← map_position_factors, List.map_map]
  refine congrArg List.sum (List.map_congr_left ?_)
  intro p hp
  rw [List.length_map, length_filter_precedes, (mem_factors.mp hp).1]
  rfl

theorem length_combinations_triple (n : Namespaces R) (a b c : UInt8) :
    (n.combinations [a, b, c]).length = ((List.range (n.featuresIn a).length).map fun i =>
      ((List.range ((n.featuresIn b).length - start (a == b) i)).map fun j =>
        (n.featuresIn c).length - start (b == c) (start (a == b) i + j)).sum).sum := by
  rw [combinations_triple, List.length_flatMap, ← map_position_factors, List.map_map]
  refine congrArg List.sum (List.map_congr_left ?_)
  intro p hp
  have hpositions := n.map_position_filter_precedes p b
  rw [(mem_factors.mp hp).1] at hpositions
  have hvalues := congrArg (List.map fun j => (n.featuresIn c).length - start (b == c) j) hpositions
  rw [List.map_map, List.map_map] at hvalues
  rw [List.length_flatMap]
  refine Eq.trans (congrArg List.sum (List.map_congr_left ?_)) (congrArg List.sum hvalues)
  intro q hq
  rw [List.length_map, length_filter_precedes, (mem_factors.mp (List.mem_filter.mp hq).1).1]
  rfl

/-- Each term adds as many products as its count says. -/
theorem length_combinations (n : Namespaces R) (term : Term) :
    (n.combinations term).length = term.count fun name => (n.featuresIn name).length := by
  have hpairs (size first : Nat) :
      ((List.range (size - first)).map fun j => size - (first + j)).sum =
        (size - first).multichoose 2 := by
    rw [← sum_multichoose]
    simp [Nat.sub_add_eq]
  match term with
  | [] | [_] | _ :: _ :: _ :: _ :: _ => rfl
  | [a, b] =>
    rw [length_combinations_pair]
    by_cases hab : a = b
    · subst hab
      simp [start, Term.count, ← multichoose_two_right, ← sum_multichoose]
    · simp [start, Term.count, hab]
  | [a, b, c] =>
    rw [length_combinations_triple]
    by_cases hab : a = b
    · subst hab
      by_cases hac : a = c
      · subst hac
        simp [start, Term.count, hpairs, ← multichoose_three_right, sum_multichoose]
      · simp [start, Term.count, hac, ← multichoose_two_right, ← sum_multichoose,
          List.sum_map_mul_right]
    · by_cases hbc : b = c
      · subst hbc
        have hall := hpairs (n.featuresIn b).length 0
        simp only [Nat.sub_zero, Nat.zero_add] at hall
        simp [start, Term.count, hab, hall, ← multichoose_two_right]
      · simp [start, Term.count, hab, hbc, mul_assoc]

end Namespaces

/-! ## What a learner sees -/

/-- Interactions are expanded exactly. A learner sees the features of an example, namespace by
namespace, and then term by term one product for every combination of the term: a term of two or of
three namespaces is combined from one feature of each, and where neighbours are the same namespace
their positions do not decrease. Combinations come in the lexicographic order of positions, a term
that names no features has none, and there are as many as the sizes of the namespaces say. Their
number is noted down with the prediction. -/
theorem Example.visits_exact {W : Type} [Scalar R] (context : Context R W) (ec : Example R)
    (raw : R) :
    let n := ec.namespaces
    let terms := context.interactions
    ec.visits terms =
        (n.indices.flatMap n.featuresIn).map (fun f => ⟨f.index + ec.offset, f.value⟩) ++
          (terms.flatMap n.combinations).map (fun c => ⟨c.index + ec.offset, c.value⟩) ∧
      (∀ term : Term,
        (∀ c, c ∈ n.combinations term ↔ (term.length = 2 ∨ term.length = 3) ∧
          c.map Factor.name = term ∧
          (∀ p ∈ c, (n.featuresIn p.name)[p.position]? = some p.feature) ∧ c.Ascending) ∧
        ((n.combinations term).map Combination.positions).Pairwise (· < ·) ∧
        (n.combinations term).length = term.count fun name => (n.featuresIn name).length) ∧
      (Optimizer.publish context raw ec).generated = (terms.flatMap n.combinations).length ∧
      (Optimizer.publish context raw ec).generated =
        (terms.map (Term.count fun name => (n.featuresIn name).length)).sum := by
  intro n terms
  have hproducts : ec.products terms = (terms.flatMap n.combinations).map Combination.product := by
    rw [products, List.map_flatMap]
    exact congrArg terms.flatMap (funext n.expand_eq)
  have hgenerated : (Optimizer.publish context raw ec).generated =
      (terms.flatMap n.combinations).length := by
    change (ec.products terms).length = _
    rw [hproducts, List.length_map]
  refine ⟨?_, ?_, hgenerated, ?_⟩
  · rw [visits, hproducts, Namespaces.toList_eq_flatMap, List.map_append, List.map_map]
    rfl
  · intro term
    exact ⟨fun c => Namespaces.mem_combinations, n.pairwise_combinations term,
      n.length_combinations term⟩
  · rw [hgenerated, List.length_flatMap]
    exact congrArg List.sum (List.map_congr_left fun term _ => n.length_combinations term)

end OnlineLearning
