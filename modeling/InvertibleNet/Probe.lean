/-
# The reconstruction probe

The probe sends a random batch through the invertible branch and back, and
measures how far each block's reconstructed input is from the input it really
received. The measurements make a report, which passes if the input itself
comes back within a tolerance. The batch may be of any size, so the way there
is taken as far as memory goes; the way back makes no tensor that is larger.
-/

import InvertibleNet.Network.Basic
import InvertibleNet.Random.Batch
import InvertibleNet.Tensor.Distance

namespace InvertibleNet

/-- The reconstruction error of one block. -/
structure BlockError where
  spec : BlockSpec
  maxAbsError : Single
  deriving DecidableEq, Repr

/-- What a probe has found. -/
structure Report where
  batchSize : Nat
  seed : Nat
  tolerance : Single
  blocks : List BlockError
  endToEnd : Single
  deriving DecidableEq, Repr

namespace Report

/-- Whether the input came back within the tolerance. -/
def passed (report : Report) : Bool :=
  report.endToEnd.isFinite && report.endToEnd.less report.tolerance

/-- Of two measurements the one further off, the later one of equals. -/
def worseOf (first second : BlockError) : BlockError :=
  if second.maxAbsError.rank < first.maxAbsError.rank then first else second

/-- The block whose reconstruction is furthest off. -/
def worst? (report : Report) : Option BlockError :=
  match report.blocks with
  | [] => none
  | first :: rest => some (rest.foldl worseOf first)

/-- The line that sums a probe up. -/
def summaryLine (report : Report) : String :=
  s!"Reconstruction error over {report.batchSize} samples: {report.endToEnd.messageText 3}"

end Report

/-- Measure every block by the two traces. -/
def measure (specs : List BlockSpec) (forward backward : List (Tensor Single)) :
    Except Fault (List BlockError) :=
  (specs.zip (forward.zip backward)).mapM fun (spec, received, reconstructed) =>
    return ⟨spec, ← received.maxAbsError reconstructed⟩

/-- Probe a network with the batch of a seed. -/
def Network.probe (network : Network) (batchSize seed : Nat) (tolerance : Single) :
    Except Fault Report := do
  let ⟨channels, height, width⟩ := network.plan.geometry.input
  let x ← randomBatch ⟨batchSize, channels, height, width⟩ seed.toUInt64
  let forward ← network.branch.forwardTraceInMemory x
  let features := forward.getLast?.getD x
  let backward ← network.branch.inverseTrace features
  let blocks ← measure (network.blocks.map (·.spec)) forward backward
  let restored ← network.branch.inverse features
  return {
    batchSize := batchSize
    seed := seed
    tolerance := tolerance
    blocks := blocks
    endToEnd := ← restored.maxAbsError x }

end InvertibleNet
