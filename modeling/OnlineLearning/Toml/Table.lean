import OnlineLearning.Toml.Value

/-!
# Tables of a TOML document

A statement adds to the table that its key leads to. `Entries.alter` walks there, making the tables
that are missing; it fails where a value stands in the way, or a table that is complete.

* A header opens a table that no header and no dotted key has made.
* A dotted key adds only to tables that dotted keys of the same table have made.
* A key is given one value.
-/

namespace OnlineLearning.Toml

/-- A dotted key: the tables on the way, and the name in the last of them. -/
structure Key where
  parents : List String
  name : String
  deriving DecidableEq, Repr

namespace Entries

/-- Changes the table at a path. The way leads through the last table of a growing array; with
`dotted` it leads through no table that a header has opened. -/
def alter (dotted : Bool) (f : TableKind → Entries → Option Entries) :
    (path : List String) → TableKind → Entries → Option Entries
  | [], kind, es => f kind es
  | step :: path, _, es =>
    match es.lookup step with
    | none => do
      let kind := if dotted then .dotted else .implied
      let inner ← alter dotted f path kind []
      pure (es ++ [(step, .table kind inner)])
    | some (.table .inline _) => none
    | some (.table kind inner) =>
      if dotted && kind == .header then none
      else do pure (es.put step (.table kind (← alter dotted f path kind inner)))
    | some (.array true items) =>
      match items.getLast? with
      | some (.table kind inner) => do
        let inner ← alter dotted f path kind inner
        pure (es.put step (.array true (items.dropLast ++ [.table kind inner])))
      | _ => none
    | some _ => none

/-- Adds a pair to the entries of a table. -/
def insertPair (key : Key) (value : Value) (kind : TableKind) (es : Entries) : Option Entries :=
  alter true (fun kind es =>
    if (kind == .dotted) == key.parents.isEmpty then none
    else if (es.lookup key.name).isSome then none
    else some (es ++ [(key.name, value)])) key.parents kind es

/-- Opens the table of a header. -/
def openTable (key : Key) (root : Entries) : Option Entries :=
  alter false (fun _ es =>
    match es.lookup key.name with
    | none => some (es ++ [(key.name, .table .header [])])
    | some (.table .implied inner) => some (es.put key.name (.table .header inner))
    | some _ => none) key.parents .header root

/-- Adds a table to a growing array. -/
def growArray (key : Key) (root : Entries) : Option Entries :=
  alter false (fun _ es =>
    match es.lookup key.name with
    | none => some (es ++ [(key.name, .array true [.table .header []])])
    | some (.array true items) =>
      some (es.put key.name (.array true (items ++ [.table .header []])))
    | some _ => none) key.parents .header root

end Entries

end OnlineLearning.Toml
