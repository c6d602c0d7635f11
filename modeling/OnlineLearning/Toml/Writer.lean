import OnlineLearning.Decimal.Layout
import OnlineLearning.Toml.Statement

/-!
# Writing TOML

`Statement.text` writes a line of a document. A string is written in the first of these forms that
needs no escapes: between quotation marks, between apostrophes, and the same with three marks.
-/

namespace OnlineLearning.Toml

/-! ## Strings -/

/-- Characters that no form can hold as they are: controls other than tabs and line breaks. -/
def needsCode (c : Char) : Bool := (c < ' ' && c != '\t' && c != '\n') || c == '\x7f'

/-- The length of the longest run of a character, after `run` of them. -/
def longestRun (mark : Char) : (run : Nat) → List Char → Nat
  | run, [] => run
  | run, c :: rest => if c == mark then longestRun mark (run + 1) rest
    else max run (longestRun mark 0 rest)

/-- The escape of a character that may not stand for itself. -/
def codeEscape (c : Char) : List Char :=
  if c == '\x08' then ['\\', 'b']
  else if c == '\t' then ['\\', 't']
  else if c == '\n' then ['\\', 'n']
  else if c == '\x0c' then ['\\', 'f']
  else if c == '\r' then ['\\', 'r']
  else if c == '\\' then ['\\', '\\']
  else
    let digits := (Nat.toDigits 16 c.toNat).map Char.toUpper
    ['\\', 'u'] ++ List.replicate (4 - digits.length) '0' ++ digits

/-- A text with escapes. At most `allowed` quotation marks follow each other without a backslash,
and `run` of them have been written; line breaks stay in a text of several lines. -/
def escaped (lines : Bool) (allowed : Nat) : (run : Nat) → List Char → List Char
  | _, [] => []
  | run, c :: rest =>
    if c == '"' then
      if run < allowed then c :: escaped lines allowed (run + 1) rest
      else '\\' :: c :: escaped lines allowed 0 rest
    else if c == '\n' && lines then c :: escaped lines allowed 0 rest
    else if c == '\t' || c == '\n' || c == '\\' || needsCode c then
      codeEscape c ++ escaped lines allowed 0 rest
    else c :: escaped lines allowed 0 rest

/-- A text between three marks; one with line breaks starts on a line of its own. -/
def betweenThree (mark : Char) (content body : List Char) : List Char :=
  let marks := [mark, mark, mark]
  marks ++ (if content.contains '\n' then ['\n'] else []) ++ body ++ marks

def stringText (s : String) : String :=
  let cs := s.toList
  let hasCode := cs.any needsCode
  let hasBreak := cs.contains '\n'
  let hasSlash := cs.contains '\\'
  let basic := '"' :: escaped false 0 0 cs ++ ['"']
  let basicLines := betweenThree '"' cs (escaped true 2 0 cs)
  String.ofList <|
    if !hasCode && !hasSlash && !hasBreak && !cs.contains '"' then basic
    else if !hasCode && !hasBreak && !cs.contains '\'' then '\'' :: cs ++ ['\'']
    else if !hasCode && !hasSlash && longestRun '"' 0 cs ≤ 2 then basicLines
    else if !hasCode && longestRun '\'' 0 cs ≤ 2 then betweenThree '\'' cs cs
    else if hasBreak then basicLines
    else basic

/-! ## Values -/

/-- Floats have no exponent. -/
def floatStyle : NumberStyle where
  tie := .up
  isPositional _ := true
  exponentSign := ""
  infinity := "inf"
  negativeInfinity := "-inf"
  notANumber := "nan"

def keyText (name : String) : String :=
  if !name.isEmpty && name.toList.all isBareChar then name else stringText name

mutual

def valueText : Value → String
  | .string s => stringText s
  | .integer n => toString n
  | .float x => floatStyle.write64 x
  | .boolean b => if b then "true" else "false"
  | .dateTime text => text
  | .array _ items => "[" ++ ", ".intercalate (itemTexts items) ++ "]"
  | .table _ entries => "\x7b " ++ ", ".intercalate (entryTexts entries) ++ " \x7d"

def itemTexts : List Value → List String
  | [] => []
  | v :: rest => valueText v :: itemTexts rest

def entryTexts : List (String × Value) → List String
  | [] => []
  | (name, v) :: rest => (keyText name ++ " = " ++ valueText v) :: entryTexts rest

end

/-! ## Lines -/

def Key.text (k : Key) : String := ".".intercalate ((k.parents ++ [k.name]).map keyText)

/-- A statement with its line break. -/
def Statement.text : Statement → String
  | .blank => "\n"
  | .header key => "[" ++ key.text ++ "]\n"
  | .arrayHeader key => "[[" ++ key.text ++ "]]\n"
  | .pair key value => key.text ++ " = " ++ valueText value ++ "\n"

/-- The text of a document. -/
def render (lines : List Statement) : String := String.join (lines.map Statement.text)

end OnlineLearning.Toml
