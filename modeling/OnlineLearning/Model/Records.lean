import OnlineLearning.Model.Load
import OnlineLearning.Reduction.Grounded
import OnlineLearning.Stats

/-!
# Records in a model

The statistics of a chain and the counters of a grounded node are stored as records. The counters
are all that a grounded node adds to a model.
-/

namespace OnlineLearning

open Persistent

namespace Stats

/-- The names of the statistics, in order. -/
def fieldNames : List String :=
  ["min_label", "max_label", "example_number", "total_features", "sum_loss",
    "sum_loss_since_last_dump", "weighted_labeled_examples", "weighted_labels",
    "weighted_holdout_examples", "holdout_sum_loss", "weighted_holdout_examples_since_last_pass",
    "holdout_sum_loss_since_last_pass", "holdout_best_loss", "holdout_best_pass"]

def fieldValues (s : Stats Float32 Float) : List FieldValue :=
  [toValue s.minLabel, toValue s.maxLabel, toValue s.exampleNumber, toValue s.totalFeatures,
    toValue s.sumLoss, toValue s.sumLossSinceLastDump, toValue s.weightedLabeledExamples,
    toValue s.weightedLabels, toValue s.weightedHoldoutExamples, toValue s.holdoutSumLoss,
    toValue s.weightedHoldoutExamplesSinceLastPass, toValue s.holdoutSumLossSinceLastPass,
    toValue s.holdoutBestLoss, toValue s.holdoutBestPass]

instance : Persistent (Stats Float32 Float) where
  toValue s := .record "SharedStats" fieldNames s.fieldValues
  decoder := do
    pure {
      minLabel := ← decoder
      maxLabel := ← decoder
      exampleNumber := ← decoder
      totalFeatures := ← decoder
      sumLoss := ← decoder
      sumLossSinceLastDump := ← decoder
      weightedLabeledExamples := ← decoder
      weightedLabels := ← decoder
      weightedHoldoutExamples := ← decoder
      holdoutSumLoss := ← decoder
      weightedHoldoutExamplesSinceLastPass := ← decoder
      holdoutSumLossSinceLastPass := ← decoder
      holdoutBestLoss := ← decoder
      holdoutBestPass := ← decoder }

end Stats

instance : Persistent GroundedCounters where
  toValue c :=
    .record "IglCounters" ["decoder_examples", "extreme_batches", "batches_learned"]
      [toValue c.decoderExamples, toValue c.extremeBatches, toValue c.batchesLearned]
  decoder := do
    pure {
      decoderExamples := ← decoder
      extremeBatches := ← decoder
      batchesLearned := ← decoder }

namespace Grounded

def fields (s : GroundedState Float32 Float) : List Field := [Field.of "igl.counters" s.counters]

def load (format : ModelFormat) : LoadM (GroundedState Float32 Float) Unit := do
  let counters ← LoadM.take format GroundedCounters "igl.counters"
  LoadM.modifyState ({ · with counters })

end Grounded

end OnlineLearning
