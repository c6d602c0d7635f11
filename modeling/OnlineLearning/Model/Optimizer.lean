import OnlineLearning.Model.Load
import OnlineLearning.Model.Records
import OnlineLearning.Optimizer.Basic

/-!
# The model of an optimizer

With `saveResume` a model holds everything that learning goes on from: totals, statistics and all
channels. Without, it holds the parameters alone.

* `WeightTable.fields` and `Optimizer.fields` list the fields of a model in order;
* `WeightTable.load` and `Optimizer.load` read them. A load that fails leaves what it read so far.
-/

namespace OnlineLearning

namespace WeightTable

variable {width : Nat}

/-- The fields of a table: with `resume` its width and every channel of the groups that are not
zero, otherwise their parameters. -/
def fields (t : WeightTable Float32 width) (resume : Bool) : List Field :=
  let groups := t.nonZeroGroups
  let count := Field.of "weights.count" (UInt64.ofNat groups.length)
  if resume then
    Field.of "weights.width" (UInt64.ofNat width) :: count ::
      groups.map fun (index, g) => Field.of "weights.group" (index, g.toList)
  else count :: groups.map fun (index, g) => Field.of "weights.param" (index, (g[0]?).getD 0)

/-- Takes a group and writes it. -/
def loadGroup (format : ModelFormat) (resume : Bool) : LoadM (WeightTable Float32 width) Unit := do
  if resume then
    let (index, channels) ← LoadM.take format (UInt64 × List Float32) "weights.group"
    if h : channels.length = width then
      LoadM.modifyState fun t => t.setGroup index ⟨channels.toArray, h⟩
    else throw (.widthMismatch width channels.length)
  else
    let (index, param) ← LoadM.take format (UInt64 × Float32) "weights.param"
    LoadM.modifyState fun t => t.setChannel index 0 param

def loadGroups (format : ModelFormat) (resume : Bool) :
    Nat → LoadM (WeightTable Float32 width) Unit
  | 0 => pure ()
  | count + 1 => do
    loadGroup format resume
    loadGroups format resume count

/-- Replaces the content of a table. -/
def load (format : ModelFormat) (resume : Bool) : LoadM (WeightTable Float32 width) Unit := do
  LoadM.modifyState clear
  if resume then
    let found ← LoadM.take format UInt64 "weights.width"
    if found.toNat ≠ width then throw (.widthMismatch width found.toNat)
  let count ← LoadM.take format UInt64 "weights.count"
  loadGroups format resume count.toNat

end WeightTable

namespace Optimizer

/-- The fields of an optimizer and of the context that it is saved under. -/
def fields (o : Optimizer Float32 Float) (context : Context Float32 Float) : List Field :=
  let resume := context.saveResume
  let totals :=
    if resume then
      [Field.of "ftrl.total_weight" o.totalWeight,
        Field.of "ftrl.normalized_sum_norm_x" o.normalizedSumNorm,
        Field.of "ftrl.size" o.size,
        Field.of "shared_data" context.stats]
    else []
  Field.of "resume" resume :: totals ++ o.weights.fields resume

/-- Takes totals and statistics. -/
def loadTotals (format : ModelFormat) :
    LoadM (Optimizer Float32 Float × Context Float32 Float) Unit := do
  let totalWeight ← LoadM.take format Float "ftrl.total_weight"
  LoadM.modifyState fun (o, c) => ({ o with totalWeight }, c)
  let normalizedSumNorm ← LoadM.take format Float "ftrl.normalized_sum_norm_x"
  LoadM.modifyState fun (o, c) => ({ o with normalizedSumNorm }, c)
  let size ← LoadM.take format UInt64 "ftrl.size"
  LoadM.modifyState fun (o, c) => ({ o with size }, c)
  let stats ← LoadM.take format (Stats Float32 Float) "shared_data"
  LoadM.modifyState fun (o, c) => (o, { c with stats })

/-- Replaces the model of an optimizer. Whether it holds totals is told by the model itself. -/
def load (format : ModelFormat) :
    LoadM (Optimizer Float32 Float × Context Float32 Float) Unit := do
  LoadM.modifyState fun (o, c) => ({ o with weights := o.weights.clear }, c)
  let resume ← LoadM.take format Bool "resume"
  if resume then loadTotals format
  let (o, c) := (← get).2
  LoadM.onPart o.weights (fun weights => ({ o with weights }, c))
    (WeightTable.load format resume)
  LoadM.modifyState fun (o, c) => (o.refreshAverage, c)

end Optimizer

end OnlineLearning
