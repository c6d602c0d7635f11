import OnlineLearning.Decimal.Layout
import OnlineLearning.Error
import OnlineLearning.Stats

/-!
# The progress journal

A journal takes an entry when the number of examples has doubled since the entry before. Each
entry tells the average loss over all examples and over those since the entry before.

* `Journal.observe` is called after every example;
* `JournalEntry.line` is the line that a journal file gets for an entry.
-/

namespace OnlineLearning

structure JournalEntry (R W : Type) where
  exampleNumber : UInt64
  averageLoss : W
  sinceLast : W
  label : Option R
  prediction : R
  features : Nat

/-- Where entries go besides memory. A file that cannot be reached holds no lines. -/
inductive JournalFile where
  | none
  | reachable
  | unreachable
  deriving DecidableEq, Repr

structure Journal (R W : Type) where
  file : JournalFile
  /-- The example number from which on the next entry is due. -/
  nextEntry : UInt64
  /-- The labeled weight at the entry before. -/
  weightedAtLast : W
  /-- The entries, in order. -/
  entries : List (JournalEntry R W)

namespace Journal

variable {R W : Type} [Number W]

def empty (file : JournalFile) : Journal R W where
  file
  nextEntry := 1
  weightedAtLast := 0
  entries := []

/-- The entry that is due now. -/
def entry (j : Journal R W) (s : Stats R W) (label : Option R) (prediction : R) (features : Nat) :
    JournalEntry R W :=
  let weighted := s.weightedLabeledExamples - j.weightedAtLast
  { exampleNumber := s.exampleNumber
    averageLoss := s.averageLoss
    sinceLast := if 0 < weighted then s.sumLossSinceLastDump / weighted else 0
    label, prediction, features }

/-- Takes an entry if one is due. The interval starts anew also when the file cannot be reached,
and then the entry is lost. -/
def observe (j : Journal R W) (s : Stats R W) (label : Option R) (prediction : R)
    (features : Nat) : Except LearnerError Unit × Journal R W × Stats R W :=
  if s.exampleNumber < j.nextEntry then (.ok (), j, s)
  else
    let scheduled := { j with
      nextEntry := s.exampleNumber * 2
      weightedAtLast := s.weightedLabeledExamples }
    let s' := { s with sumLossSinceLastDump := 0 }
    match j.file with
    | .unreachable => (.error (.journal "the file cannot be opened"), scheduled, s')
    | .none | .reachable =>
      let entry := j.entry s label prediction features
      (.ok (), { scheduled with entries := j.entries ++ [entry] }, s')

end Journal

namespace JournalEntry

/-- Wide numbers of a journal line: ties go to even digits, numbers that are not finite become
`null`, and an exponent is written below `1e-5` and from `1e16` on. -/
def wideStyle : NumberStyle where
  tie := .even
  isPositional lead := -5 ≤ lead && lead < 16
  exponentSign := "+"
  infinity := "null"
  negativeInfinity := "null"
  notANumber := "null"

/-- Narrow numbers are written with an exponent below `1e-6` and from `1e13` on. -/
def narrowStyle : NumberStyle :=
  { wideStyle with isPositional := fun lead => -6 ≤ lead && lead < 13 }

/-- The line of an entry, stamped with a time in milliseconds. -/
def line (e : JournalEntry Float32 Float) (time : Nat) : String :=
  let members :=
    [("example_number", toString e.exampleNumber.toNat),
      ("average_loss", wideStyle.write64 e.averageLoss),
      ("since_last", wideStyle.write64 e.sinceLast),
      ("label", (e.label.map narrowStyle.write32).getD "null"),
      ("prediction", narrowStyle.write32 e.prediction),
      ("features", toString e.features),
      ("timestamp_ms", toString time)]
  "\x7b" ++ ",".intercalate (members.map fun (key, value) => "\"" ++ key ++ "\":" ++ value)
    ++ "\x7d"

end JournalEntry

/-- The lines of the journal file, if there is one. -/
def Journal.lines? (j : Journal Float32 Float) (time : Nat) : Option (List String) :=
  match j.file with
  | .none => none
  | .reachable => some (j.entries.map (·.line time))
  | .unreachable => some []

end OnlineLearning
