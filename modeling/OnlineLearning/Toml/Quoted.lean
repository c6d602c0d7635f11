import OnlineLearning.Text.Reader
import OnlineLearning.Toml.Scalar

/-!
# Strings in TOML

A string stands between quotation marks, with escapes, or between apostrophes, without. Between
three such marks it may have several lines, and runs of one or two marks inside.
-/

namespace OnlineLearning.Toml

open Reader

/-- A blank inside of a line. -/
def isBlank (c : Char) : Bool := c == ' ' || c == '\t'

/-- Characters of a line: no control but the tab. -/
def isLineChar (c : Char) : Bool := c == '\t' || (' ' ≤ c && c != '\x7f')

/-- A line break, as one character. -/
def newline : Reader Char :=
  (do char '\n'; pure '\n') <|> (do char '\r'; char '\n'; pure '\n')

/-- A character by its code in hexadecimal digits. -/
def unicodeEscape (count : Nat) : Reader Char := do
  let digits ← (List.replicate count ()).mapM fun _ => one isHexDigit
  let code := ofDigits 16 digits
  if code.isValidChar then pure (Char.ofNat code) else failure

def escapedChar : Reader Char := do
  char '\\'
  match ← one fun _ => true with
  | 'b' => pure '\x08'
  | 't' => pure '\t'
  | 'n' => pure '\n'
  | 'f' => pure '\x0c'
  | 'r' => pure '\r'
  | '"' => pure '"'
  | '\\' => pure '\\'
  | 'u' => unicodeEscape 4
  | 'U' => unicodeEscape 8
  | _ => failure

/-- A character that stands for itself between quotation marks. -/
def isBasicChar (c : Char) : Bool := isLineChar c && c != '"' && c != '\\'

/-- A character that stands for itself between apostrophes. -/
def isLiteralChar (c : Char) : Bool := isLineChar c && c != '\''

def basicString : Reader (List Char) := do
  char '"'
  let body ← many (one isBasicChar <|> escapedChar)
  char '"'
  pure body

def literalString : Reader (List Char) := do
  char '\''
  let body ← run isLiteralChar
  char '\''
  pure body

/-- One or two marks inside of a string that goes on behind them. -/
def innerMarks (mark : Char) : Reader (List Char) := fun s =>
  let marks := s.takeWhile (· == mark)
  let rest := s.dropWhile (· == mark)
  if (marks.length = 1 ∨ marks.length = 2) ∧ !rest.isEmpty then some (marks, rest) else none

/-- The three marks at the end of a string, and up to two marks in front of them that belong to
it. -/
def closingMarks (mark : Char) : Reader (List Char) := fun s =>
  let count := min (s.takeWhile (· == mark)).length 5
  if 3 ≤ count then some (List.replicate (count - 3) mark, s.drop count) else none

/-- A backslash at the end of a line joins the next line that is not blank. -/
def lineJoin : Reader Unit := do
  char '\\'
  let _ ← run isBlank
  let _ ← newline
  let _ ← many ((do let _ ← newline) <|> do let _ ← run1 isBlank)

/-- A string of several lines; a line break right after the opening marks is not part of it. -/
def multiline (mark : Char) (piece : Reader (List Char)) : Reader (List Char) := do
  word (String.ofList [mark, mark, mark])
  let _ ← maybe newline
  let pieces ← many (piece <|> innerMarks mark)
  let last ← closingMarks mark
  pure (pieces.flatten ++ last)

def oneChar (r : Reader Char) : Reader (List Char) := (fun c => [c]) <$> r

def multilineBasic : Reader (List Char) :=
  multiline '"'
    (oneChar (one isBasicChar) <|> oneChar newline <|> (do lineJoin; pure []) <|>
      oneChar escapedChar)

def multilineLiteral : Reader (List Char) :=
  multiline '\'' (oneChar (one isLiteralChar) <|> oneChar newline)

def string : Reader Value :=
  (fun cs => .string (String.ofList cs)) <$>
    (multilineBasic <|> basicString <|> multilineLiteral <|> literalString)

end OnlineLearning.Toml
