/-!
# Readers

A `Reader` takes a value off the front of a text, or fails. Where alternatives are tried, a reader
that fails has read nothing.
-/

namespace OnlineLearning

abbrev Reader := StateT (List Char) Option

namespace Reader

variable {α β : Type}

/-- One character of a class. -/
def one (p : Char → Bool) : Reader Char
  | c :: rest => if p c then some (c, rest) else none
  | [] => none

/-- This character. -/
def char (c : Char) : Reader Unit := do
  let _ ← one (· == c)

/-- This text. -/
def word (text : String) : Reader Unit := text.toList.forM char

/-- The longest run of characters of a class. -/
def run (p : Char → Bool) : Reader (List Char) := fun s => some (s.takeWhile p, s.dropWhile p)

/-- The longest run of characters of a class, which is not empty. -/
def run1 (p : Char → Bool) : Reader (List Char) := do
  let first ← one p
  pure (first :: (← run p))

/-- The end of the text. -/
def done : Reader Unit
  | [] => some ((), [])
  | _ :: _ => none

/-- The text that a value is read from. -/
def source (r : Reader α) : Reader (List Char) := fun s =>
  (r s).map fun (_, rest) => (s.take (s.length - rest.length), rest)

/-- A value that may be absent. -/
def maybe (r : Reader α) : Reader (Option α) := some <$> r <|> pure none

/-- As many values as there are, but at most `limit`. -/
def upTo (r : Reader α) : (limit : Nat) → Reader (List α)
  | 0 => pure []
  | limit + 1 => (do pure ((← r) :: (← upTo r limit))) <|> pure []

/-- As many values as there are; every value has to be written with a character at least. -/
def many (r : Reader α) : Reader (List α) := fun s => upTo r s.length s

/-- Values with separators between them, none included. -/
def separated (r : Reader α) (separator : Reader β) : Reader (List α) :=
  (do pure ((← r) :: (← many (do let _ ← separator; r)))) <|> pure []

/-- The value of a whole text. -/
def whole? (r : Reader α) (text : String) : Option α :=
  match r text.toList with
  | some (a, []) => some a
  | _ => none

end Reader

end OnlineLearning
