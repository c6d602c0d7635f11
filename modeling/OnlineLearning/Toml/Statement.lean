import OnlineLearning.Toml.Quoted
import OnlineLearning.Toml.Table

/-!
# The lines of a TOML document

A document is a sequence of statements: headers, which open a table, and pairs of a key and a
value, which add to the open table.
-/

namespace OnlineLearning.Toml

open Reader

inductive Statement where
  | blank
  | header (key : Key)
  | arrayHeader (key : Key)
  | pair (key : Key) (value : Value)

def blanks : Reader Unit := do
  let _ ← run isBlank

def comment : Reader Unit := do
  char '#'
  let _ ← run isLineChar

/-- The end of a line: blanks, and a comment if there is one. -/
def lineEnd : Reader Unit := do
  blanks
  let _ ← maybe comment
  (do let _ ← newline) <|> done

/-! ## Keys -/

def isBareChar (c : Char) : Bool := c.isAlphanum || c == '-' || c == '_'

def simpleKey : Reader String :=
  String.ofList <$> (basicString <|> literalString <|> run1 isBareChar)

/-- The greatest depth of keys and of values, exclusive. -/
def depthLimit : Nat := 80

/-- A dotted key. -/
def key : Reader Key := do
  let part := do
    blanks
    let name ← simpleKey
    blanks
    pure name
  let parts ← separated part (char '.')
  match parts.getLast? with
  | some name =>
    if parts.length < depthLimit then pure ⟨parts.dropLast, name⟩ else failure
  | none => failure

/-! ## Values -/

/-- What may stand between the items of an array. -/
def gap : Reader Unit := do
  blanks
  let _ ← many do
    let _ ← maybe comment
    let _ ← newline
    blanks

def array (item : Reader Value) : Reader Value := do
  char '['
  let items ← separated (do gap; let v ← item; gap; pure v) (char ',')
  let _ ← if items.isEmpty then pure none else maybe (char ',')
  gap
  char ']'
  pure (.array false items)

def inlineTable (item : Reader Value) : Reader Value := do
  char '\x7b'
  let pairs ← separated (do
    let k ← key
    char '='
    blanks
    let v ← item
    blanks
    pure (k, v)) (char ',')
  blanks
  char '\x7d'
  match pairs.foldlM (fun es (k, v) => Entries.insertPair k v .header es) [] with
  | some entries => pure (.table .inline entries)
  | none => failure

/-- A value with at most `depth` arrays and tables around its innermost part. -/
def value (depth : Nat) : Reader Value :=
  string <|> boolean <|> dateTime <|> finiteFloat <|> integer <|> specialFloat <|>
    match depth with
    | 0 => failure
    | depth + 1 => array (value depth) <|> inlineTable (value depth)

/-! ## Statements -/

def pair : Reader Statement := do
  let k ← key
  char '='
  blanks
  let v ← value (depthLimit - 1)
  lineEnd
  pure (.pair k v)

def arrayHeader : Reader Statement := do
  word "[["
  let k ← key
  word "]]"
  lineEnd
  pure (.arrayHeader k)

def header : Reader Statement := do
  char '['
  let k ← key
  char ']'
  lineEnd
  pure (.header k)

def blankLine : Reader Statement := do
  let _ ← (do let _ ← newline) <|> do
    comment
    (do let _ ← newline) <|> done
  pure .blank

def statement : Reader Statement := blankLine <|> arrayHeader <|> header <|> pair

/-- The statements of a document, behind a byte order mark if there is one. -/
def statements : Reader (List Statement) := do
  let _ ← maybe (char '\ufeff')
  blanks
  many do
    let s ← statement
    blanks
    pure s

end OnlineLearning.Toml
