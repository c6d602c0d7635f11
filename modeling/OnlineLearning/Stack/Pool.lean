import OnlineLearning.Stack.Build

/-!
# Chains that share optimizers

A pool holds chains by name and their optimizers apart from them: a chain that was built over a
line of another one goes on with its optimizer, also after the other one was replaced.

* `Pool.get?` finds a chain, with its optimizer in the state in which the last call left it;
* `Pool.put` stores a chain after a call;
* `Pool.build` adds a chain, or replaces one.
-/

namespace OnlineLearning

/-- A chain of a pool, with the number of its optimizer. -/
structure Member (R W : Type) where
  chain : Chain R W
  number : Nat
  /-- Whether the optimizer was built with the chain. -/
  ownsOptimizer : Bool

structure Pool (R W : Type) where
  members : List (String × Member R W)
  optimizers : List (Optimizer R W)

namespace Pool

variable {R W : Type}

def empty : Pool R W := ⟨[], []⟩

def get? (p : Pool R W) (name : String) : Option (Member R W) := do
  let m ← p.members.lookup name
  let o ← p.optimizers[m.number]?
  pure { m with chain := m.chain.setOptimizer o }

def put (p : Pool R W) (name : String) (m : Member R W) : Pool R W where
  members := (name, m) :: p.members.filter (·.1 != name)
  optimizers := p.optimizers.set m.number m.chain.optimizer

variable [Scalar R] [Number W] [Widening R W]

/-- Builds a chain. `source` is the chain whose line the blueprint ends in, if it does. -/
def build (p : Pool R W) (name : String) (b : Blueprint R) (source : Option (Member R W)) :
    Except ConfigError (Member R W × Pool R W) := do
  match source with
  | some m =>
    let chain ← b.build (some m.chain.optimizer)
    let added : Member R W := ⟨chain, m.number, false⟩
    pure (added, p.put name added)
  | none =>
    let chain ← b.build none
    let added : Member R W := ⟨chain, p.optimizers.length, true⟩
    pure (added, { p with optimizers := p.optimizers ++ [chain.optimizer] }.put name added)

end Pool

end OnlineLearning
