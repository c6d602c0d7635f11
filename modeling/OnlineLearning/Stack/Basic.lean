import OnlineLearning.Optimizer.Mode
import OnlineLearning.Reduction.Bandit
import OnlineLearning.Reduction.Grounded
import OnlineLearning.Reduction.Scorer

/-!
# Stacks

A stack says which nodes stand on each other. At the bottom is an optimizer with scorers on it,
which make a `Line`: it works on single examples. A bandit node on a line and grounded nodes on
that make a `Tower`, which works on batches.

* `Stack.nodes` lists the stacks that end in the nodes of a stack, from the top to the bottom;
* `Stack.paramsPerWeight` is the number of problems that share the table of the optimizer;
* `Stack.find?` looks for a node by the beginning of its name.
-/

namespace OnlineLearning

/-- The kinds of nodes. -/
inductive Stage where
  | optimizer
  | scorer
  | bandit
  | grounded
  deriving DecidableEq, Repr

def Stage.name : Stage → String
  | optimizer => "Optimizer"
  | scorer => "Scorer"
  | bandit => "CbAdf"
  | grounded => "InteractionGround"

/-- An optimizer and the links of the scorers on it, the upmost first. -/
structure Line where
  mode : Mode
  links : List LinkFunction
  deriving DecidableEq, Repr

/-- A bandit node on a line, or a grounded node on a tower. The decoder of a grounded node is a line
over the optimizer of its primary policy, in a problem of its own. -/
inductive Tower (R : Type) where
  | bandit (line : Line)
  | grounded (settings : GroundedSettings R) (offset : UInt64) (decoder : Line) (primary : Tower R)

inductive Stack (R : Type) where
  | line (line : Line)
  | tower (tower : Tower R)

/-- The form of labels that a node learns from. -/
inductive LabelKind where
  | simple
  | bandit
  deriving DecidableEq, Repr

def LabelKind.name : LabelKind → String
  | simple => "simple"
  | bandit => "contextual-bandit"

/-- The form of predictions of a node. -/
inductive PredictionKind where
  | scalar
  | ranking
  deriving DecidableEq, Repr

def PredictionKind.name : PredictionKind → String
  | scalar => "Scalar"
  | ranking => "ActionScores"

namespace Line

/-- The name of the upmost node. -/
def name (l : Line) : String :=
  match l.links with
  | [] => "ftrl-" ++ l.mode.name
  | link :: _ => Scorer.name link

/-- A line with one more scorer. -/
def push (l : Line) (link : LinkFunction) : Line := { l with links := link :: l.links }

/-- The ends of a list, the whole list first. -/
def ends : List LinkFunction → List (List LinkFunction)
  | [] => [[]]
  | link :: rest => (link :: rest) :: ends rest

/-- The lines that end in the nodes of a line, from the top to the bottom. -/
def nodes (l : Line) : List Line := (ends l.links).map fun links => { l with links }

end Line

namespace Tower

variable {R : Type}

def name : Tower R → String
  | bandit _ => Bandit.name
  | grounded .. => Grounded.name

/-- The number of problems that a node sets apart. -/
def problems : Tower R → UInt64
  | bandit _ => 1
  | grounded .. => 2

def line : Tower R → Line
  | bandit l => l
  | grounded _ _ _ primary => primary.line

/-- The towers that end in the nodes of a tower, from the top to the bottom. -/
def nodes : Tower R → List (Tower R)
  | t@(bandit _) => [t]
  | t@(grounded _ _ _ primary) => t :: primary.nodes

end Tower

namespace Stack

variable {R : Type}

def name : Stack R → String
  | line l => l.name
  | tower t => t.name

def isMultiline : Stack R → Bool
  | line _ => false
  | tower _ => true

def labelKind : Stack R → LabelKind
  | line _ => .simple
  | tower _ => .bandit

def predictionKind : Stack R → PredictionKind
  | line _ => .scalar
  | tower _ => .ranking

/-- How the upmost node is shown. -/
def display (s : Stack R) : String :=
  (if s.isMultiline then "Multi(" else "Single(") ++ s.name ++ ")"

def problems : Stack R → UInt64
  | line _ => 1
  | tower t => t.problems

/-- The nodes of a stack with all that is below them, from the top to the bottom. -/
def nodes : Stack R → List (Stack R)
  | line l => l.nodes.map line
  | tower t => t.nodes.map tower ++ t.line.nodes.map line

/-- The names of the nodes, from the bottom to the top. -/
def enabled (s : Stack R) : List String := (s.nodes.map name).reverse

def paramsPerWeight (s : Stack R) : UInt64 := s.nodes.foldl (fun n node => n * node.problems) 1

/-- The settings and the decoder of a stack with a grounded node at the top. -/
def grounded? : Stack R → Option (GroundedSettings R × Line)
  | tower (.grounded settings _ decoder _) => some (settings, decoder)
  | _ => none

/-- The upmost node whose name starts with a text. -/
def find? (s : Stack R) (start : String) : Option (Stack R) :=
  s.nodes.find? fun node => start.isPrefixOf node.name

end Stack

end OnlineLearning
