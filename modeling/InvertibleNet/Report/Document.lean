/-
# Reports as documents

The fields of a report and of its entries, as they stand in a document. An
error that is not finite has no number text and is written as nothing, so a
report that holds one cannot be read back.
-/

import InvertibleNet.Network.Document
import InvertibleNet.Probe

namespace InvertibleNet

open Json

/-- The fields of a measurement. -/
def BlockError.record : Record BlockError where
  name := "BlockError"
  fields := [
    { name := "spec"
      required := true
      read := fun place entry => return { entry with spec := ← BlockSpec.record.ofReading place }
      write := fun entry => BlockSpec.record.toValue entry.spec },
    { name := "max_abs_error"
      required := true
      read := fun place entry => return { entry with maxAbsError := ← place.single }
      write := fun entry => .single entry.maxAbsError }]
  blank := ⟨BlockSpec.record.blank, .zero⟩

/-- The fields of a report. -/
def Report.record : Record Report where
  name := "ProbeReport"
  fields := [
    { name := "batch_size"
      required := true
      read := fun place report => return { report with batchSize := ← place.count }
      write := fun report => .count report.batchSize },
    { name := "seed"
      required := true
      read := fun place report => return { report with seed := ← place.word .seed }
      write := fun report => .count report.seed },
    { name := "tolerance"
      required := true
      read := fun place report => return { report with tolerance := ← place.single }
      write := fun report => .single report.tolerance },
    { name := "blocks"
      required := true
      read := fun place report =>
        return { report with blocks := ← place.sequence BlockError.record.ofReading }
      write := fun report => .list (report.blocks.map BlockError.record.toValue) },
    { name := "end_to_end"
      required := true
      read := fun place report => return { report with endToEnd := ← place.single }
      write := fun report => .single report.endToEnd }]
  blank := {
    batchSize := 0
    seed := 0
    tolerance := .zero
    blocks := []
    endToEnd := .zero }

end InvertibleNet
