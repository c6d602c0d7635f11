import OnlineLearning.Error
import OnlineLearning.Example.Basic

/-!
# Interactions of namespaces

A term names two or three namespaces; it adds to an example the products of their features. Where
neighbouring places of a term name the same namespace, positions do not decrease from one to the
next, so that equal factors are not permuted.

* `Term.parse?` reads the terms of a configuration;
* `Example.visits` lists the features that learners see: the features of the example, then the
  products of term after term, all of them moved by the offset of the example.
-/

namespace OnlineLearning

/-- The namespaces of an interaction. Terms of other sizes than two and three add nothing. -/
abbrev Term := List UInt8

namespace Term

/-- The bytes of a pattern, which has to name two or three namespaces. -/
def parse (pattern : String) : Except ConfigError Term :=
  let term := pattern.toUTF8.toList
  if term.length = 2 ∨ term.length = 3 then .ok term
  else .error (.invalidValue "interactions"
    s!"'{pattern}' must name 2 (quadratic) or 3 (cubic) namespaces")

def parseAll (patterns : List String) : Except ConfigError (List Term) := patterns.mapM parse

end Term

/-- The factor that sets the indices of a product apart. -/
def fnvPrime : UInt64 := 16777619

namespace Feature

variable {R : Type} [Mul R]

/-- The product of two features. -/
def mul (f g : Feature R) : Feature R :=
  ⟨f.index * fnvPrime ^^^ g.index, f.value * g.value⟩

omit [Mul R] in
def shift (offset : UInt64) (f : Feature R) : Feature R := { f with index := f.index + offset }

end Feature

namespace Interaction

variable {R : Type} [Mul R]

/-- The least position in the next place of a term, after position `i` in this place. -/
def start (same : Bool) (i : Nat) : Nat := if same then i else 0

/-- The products of two namespaces, in the order of positions. -/
def pairs (same : Bool) (first second : List (Feature R)) : List (Feature R) :=
  first.zipIdx.flatMap fun (f, i) => (second.drop (start same i)).map f.mul

/-- The products of three namespaces, in the order of positions. -/
def triples (sameFirst sameLast : Bool) (first second third : List (Feature R)) :
    List (Feature R) :=
  first.zipIdx.flatMap fun (f, i) =>
    (second.zipIdx.drop (start sameFirst i)).flatMap fun (g, j) =>
      (third.drop (start sameLast j)).map (f.mul g).mul

/-- The products of a term; none if a namespace is not registered. -/
def expand (n : Namespaces R) : Term → List (Feature R)
  | [a, b] =>
    match n.features? a, n.features? b with
    | some first, some second => pairs (a == b) first second
    | _, _ => []
  | [a, b, c] =>
    match n.features? a, n.features? b, n.features? c with
    | some first, some second, some third => triples (a == b) (b == c) first second third
    | _, _, _ => []
  | _ => []

end Interaction

namespace Example

variable {R : Type} [Mul R]

/-- The features that interactions add, before the offset. -/
def products (ec : Example R) (terms : List Term) : List (Feature R) :=
  terms.flatMap (Interaction.expand ec.namespaces)

/-- Every feature that a learner sees, in order. -/
def visits (ec : Example R) (terms : List Term) : List (Feature R) :=
  (ec.namespaces.toList ++ ec.products terms).map (Feature.shift ec.offset)

end Example

end OnlineLearning
