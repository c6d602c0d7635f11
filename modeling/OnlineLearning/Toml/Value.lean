/-!
# TOML values

A document is a table. A table remembers how it came to be, since that decides which later lines
of the document may add to it.
-/

namespace OnlineLearning.Toml

/-- How a table was made: written between braces, opened by a header, named on the way to the
table of a header, or named on the way to a dotted key. -/
inductive TableKind where
  | inline
  | header
  | implied
  | dotted
  deriving DecidableEq, Repr

inductive Value where
  | string (value : String)
  | integer (value : Int)
  | float (value : Float)
  | boolean (value : Bool)
  | dateTime (text : String)
  /-- An array of tables, each opened by a header, can still grow. -/
  | array (growing : Bool) (items : List Value)
  | table (kind : TableKind) (entries : List (String × Value))

/-- The entries of a table. Keys are distinct. -/
abbrev Entries := List (String × Value)

/-- Replaces the value of a key. -/
def Entries.put (es : Entries) (key : String) (value : Value) : Entries :=
  es.map fun e => if e.1 == key then (key, value) else e

end OnlineLearning.Toml
