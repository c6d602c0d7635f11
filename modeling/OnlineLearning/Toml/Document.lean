import OnlineLearning.Toml.Statement

/-!
# TOML documents

`Toml.parse?` reads the table that a document describes.
-/

namespace OnlineLearning.Toml

/-- A document that is read: the table so far, and the path of the table that is open. -/
structure Draft where
  root : Entries
  path : List String

/-- The draft after one more statement. -/
def Draft.add (d : Draft) : Statement → Option Draft
  | .blank => some d
  | .header key => do pure ⟨← d.root.openTable key, key.parents ++ [key.name]⟩
  | .arrayHeader key => do pure ⟨← d.root.growArray key, key.parents ++ [key.name]⟩
  | .pair key value => do
    let root ← d.root.alter false (Entries.insertPair key value) d.path .header
    pure { d with root }

/-- The table that statements build. -/
def ofStatements? (lines : List Statement) : Option Entries :=
  (lines.foldlM Draft.add ⟨[], []⟩).map Draft.root

/-- The table of a document. -/
def parse? (text : String) : Option Entries := do ofStatements? (← statements.whole? text)

end OnlineLearning.Toml
