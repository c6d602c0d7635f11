import Mathlib
import OnlineLearning.Proofs.Combinations

/-!
# Terms that repeat a namespace

Two combinations of a term are permutations of each other if they take the same features, each by
its namespace and its position there. A term that names a namespace twice avoids this as long as the
two places are neighbours, since positions do not decrease there. Around another namespace nothing
orders them.

* `Combination.members`: what a combination takes, in whatever order;
* `Namespaces.Encloses`: a term names a namespace around another one, and there is something to
  permute;
* `Namespaces.pairwise_precedes`: in all other terms the positions in a namespace do not decrease,
  so that `eq_of_perm_of_pairwise` tells combinations with the same members apart;
* `Namespaces.unrepeated_iff`: terms take the same features twice only if they enclose something.
-/

namespace OnlineLearning

variable {R : Type}

/-- Where a factor stands. -/
def Factor.place (p : Factor R) : UInt8 × Nat := (p.name, p.position)

/-- The places of the factors, in whatever order they are multiplied. -/
def Combination.members (c : Combination R) : Multiset (UInt8 × Nat) := c.map Factor.place

/-- Places in given namespaces are known from their multiset, if the positions in each namespace do
not decrease. -/
theorem eq_of_perm_of_pairwise {s t : List (UInt8 × Nat)}
    (hnames : s.map Prod.fst = t.map Prod.fst) (hperm : s.Perm t)
    (hs : s.Pairwise fun p q => p.1 = q.1 → p.2 ≤ q.2)
    (ht : t.Pairwise fun p q => p.1 = q.1 → p.2 ≤ q.2) : s = t := by
  induction s generalizing t with
  | nil => exact hperm.nil_eq
  | cons p s ih =>
    obtain ⟨q, t, rfl⟩ : ∃ q t', t = q :: t' :=
      List.exists_cons_of_ne_nil fun h => List.cons_ne_nil _ _ (h ▸ hperm).eq_nil
    obtain ⟨hname, hnames'⟩ : p.1 = q.1 ∧ s.map Prod.fst = t.map Prod.fst := List.cons.inj hnames
    obtain ⟨hp, hs'⟩ := List.pairwise_cons.mp hs
    obtain ⟨hq, ht'⟩ := List.pairwise_cons.mp ht
    -- Each of the first two stands in the other list, and so not before the first one there.
    have hqp : q.2 ≤ p.2 := by
      rcases List.mem_cons.mp (hperm.mem_iff.mp List.mem_cons_self) with heq | hmem
      · rw [heq]
      · exact hq p hmem hname.symm
    have hpq : p.2 ≤ q.2 := by
      rcases List.mem_cons.mp (hperm.mem_iff.mpr List.mem_cons_self) with heq | hmem
      · rw [heq]
      · exact hp q hmem hname
    obtain rfl : p = q := Prod.ext hname (hpq.antisymm hqp)
    rw [ih hnames' hperm.cons_inv hs' ht']

namespace Namespaces

/-- A term names a namespace with two features before and after one that is not empty. -/
def Encloses (n : Namespaces R) (term : Term) : Prop :=
  ∃ a b, a ≠ b ∧ term = [a, b, a] ∧ 2 ≤ (n.featuresIn a).length ∧ 1 ≤ (n.featuresIn b).length

variable {n : Namespaces R} {term : Term} {c d : Combination R}

/-- Where nothing is enclosed, positions in a namespace do not decrease over the whole of a
combination. -/
theorem pairwise_precedes (hterm : ¬ n.Encloses term) (hc : c ∈ n.combinations term) :
    c.Pairwise Factor.Precedes := by
  obtain ⟨hlength, rfl, hfeatures, hascending⟩ := mem_combinations.mp hc
  match c with
  | [] | [_] | _ :: _ :: _ :: _ :: _ => simp at hlength
  | [p, q] => simpa [Combination.Ascending] using hascending
  | [p, q, r] =>
    obtain ⟨hpq, hqr⟩ : p.Precedes q ∧ q.Precedes r := by
      simpa [Combination.Ascending] using hascending
    have hpr : p.Precedes r := by
      intro hname
      by_cases hmiddle : p.name = q.name
      · exact (hpq hmiddle).trans (hqr (hmiddle ▸ hname))
      · by_contra hdecrease
        have hbound {s : Factor R} (hs : s ∈ [p, q, r]) :
            s.position < (n.featuresIn s.name).length :=
          (List.getElem?_eq_some_iff.mp (hfeatures s hs)).1
        have hp := hbound (s := p) (by simp)
        have hq := hbound (s := q) (by simp)
        exact hterm ⟨p.name, q.name, hmiddle, by simp [hname], by omega, by omega⟩
    simp [hpq, hqr, hpr]

/-- A combination is known from the places of its factors. -/
theorem eq_of_map_place_eq (hc : c ∈ n.combinations term) (hd : d ∈ n.combinations term)
    (h : c.map Factor.place = d.map Factor.place) : c = d := by
  have hfeatures {c : Combination R} (hc : c ∈ n.combinations term) :=
    (mem_combinations.mp hc).2.2.1
  replace hc := hfeatures hc
  replace hd := hfeatures hd
  clear hfeatures
  induction c generalizing d with
  | nil => exact (List.map_eq_nil_iff.mp h.symm).symm
  | cons p c ih =>
    obtain ⟨q, d, rfl, hplace, hrest⟩ := List.map_eq_cons_iff.mp h.symm
    obtain ⟨hp, hc'⟩ := List.forall_mem_cons.mp hc
    obtain ⟨hq, hd'⟩ := List.forall_mem_cons.mp hd
    rw [ih hrest.symm hc' hd']
    obtain ⟨name, position, f⟩ := p
    obtain ⟨name', position', g⟩ := q
    cases hplace
    cases hp.symm.trans hq
    rfl

/-- Where nothing is enclosed, combinations with the same members are the same. -/
theorem eq_of_members_eq (hterm : ¬ n.Encloses term) (hc : c ∈ n.combinations term)
    (hd : d ∈ n.combinations term) (h : c.members = d.members) : c = d := by
  have hnames : (c.map Factor.place).map Prod.fst = (d.map Factor.place).map Prod.fst := by
    rw [List.map_map, List.map_map]
    exact (mem_combinations.mp hc).2.1.trans (mem_combinations.mp hd).2.1.symm
  exact eq_of_map_place_eq hc hd (eq_of_perm_of_pairwise hnames (Multiset.coe_eq_coe.mp h)
    (List.pairwise_map.mpr (pairwise_precedes hterm hc))
    (List.pairwise_map.mpr (pairwise_precedes hterm hd)))

/-- Around another namespace two features are taken in both orders. -/
theorem not_nodup_members (hterm : n.Encloses term) :
    ¬ ((n.combinations term).map Combination.members).Nodup := by
  obtain ⟨a, b, hne, rfl, ha, hb⟩ := hterm
  let first : Factor R := ⟨a, 0, (n.featuresIn a)[0]⟩
  let second : Factor R := ⟨a, 1, (n.featuresIn a)[1]⟩
  let middle : Factor R := ⟨b, 0, (n.featuresIn b)[0]⟩
  have hmem {p q : Factor R} (hp : p = first ∨ p = second) (hq : q = first ∨ q = second) :
      [p, middle, q] ∈ n.combinations [a, b, a] := by
    have hfactor {p : Factor R} (hp : p = first ∨ p = second) :
        p.name = a ∧ (n.featuresIn a)[p.position]? = some p.feature := by
      rcases hp with rfl | rfl
      · exact ⟨rfl, List.getElem?_eq_getElem _⟩
      · exact ⟨rfl, List.getElem?_eq_getElem _⟩
    obtain ⟨hpname, hp⟩ := hfactor hp
    obtain ⟨hqname, hq⟩ := hfactor hq
    refine mem_combinations.mpr ⟨.inr rfl, ?_, ?_, ?_⟩
    · rw [List.map_cons, List.map_cons, List.map_cons, hpname, hqname]
      rfl
    · simp [hpname, hp, hqname, hq, middle]
    · simp [Combination.Ascending, Factor.Precedes, hpname, hqname, middle, hne, hne.symm]
  have hswap : Combination.members [first, middle, second] =
      Combination.members [second, middle, first] :=
    Multiset.coe_eq_coe.mpr (List.reverse_perm [_, _, _]).symm
  intro hnodup
  have heq := List.inj_on_of_nodup_map hnodup (hmem (.inl rfl) (.inr rfl))
    (hmem (.inr rfl) (.inl rfl)) hswap
  have hpositions : 0 = 1 := congrArg Factor.position (List.cons.inj heq).1
  exact absurd hpositions zero_ne_one

theorem nodup_members (hterm : ¬ n.Encloses term) :
    ((n.combinations term).map Combination.members).Nodup := by
  have hnodup : (n.combinations term).Nodup :=
    .of_map _ ((n.pairwise_combinations term).imp ne_of_lt)
  exact hnodup.map_on fun c hc d hd => eq_of_members_eq hterm hc hd

/-- A term adds one product for each of its combinations, and no two of them take the same features
in whatever order, unless the term encloses a namespace with another one. -/
theorem unrepeated_iff [Scalar R] (n : Namespaces R) (term : Term) :
    Interaction.expand n term = (n.combinations term).map Combination.product ∧
      (((n.combinations term).map Combination.members).Nodup ↔ ¬ n.Encloses term) :=
  ⟨n.expand_eq term, fun hnodup hterm => not_nodup_members hterm hnodup, nodup_members⟩

/-- Two features of one namespace and one feature of another one. -/
def twoAndOne : Namespaces Float32 :=
  ((Namespaces.push ∅ 97 ⟨10, 1⟩).push 97 ⟨20, 1⟩).push 98 ⟨30, 1⟩

/-- A term may take the same features twice. -/
theorem not_unrepeated :
    ¬ ∀ (n : Namespaces Float32) (pattern : String) (term : Term), Term.parse pattern = .ok term →
      ((n.combinations term).map Combination.members).Nodup := by
  intro h
  have hterm : twoAndOne.Encloses [97, 98, 97] :=
    ⟨97, 98, by decide, rfl, by decide, by decide⟩
  have hparse : Term.parse "aba" = .ok [97, 98, 97] := by cbv
  exact not_nodup_members hterm (h twoAndOne "aba" [97, 98, 97] hparse)

end Namespaces

end OnlineLearning
