/-
# Checking a network

A check probes a network: the stored one of a checkpoint, or a fresh one of any
other source. The report can be logged in a directory, whether it passes or
not.
-/

import InvertibleNet.Command.Source
import InvertibleNet.Storage.ReportLog

namespace InvertibleNet

/-- What a check is asked to do. -/
structure CheckRequest where
  source : Source
  batchSize : Nat
  seed : Nat
  tolerance : Single
  reportDirectory : Option String
  deriving DecidableEq, Repr

/-- The network of a source, stored or fresh. -/
def Source.network : Source → Action Network
  | .checkpoint directory => do (← Checkpoint.openExisting directory).loadNetwork
  | source => do (← source.resolve).construct

/-- Probe the network of a request. -/
def CheckRequest.run (request : CheckRequest) : Action Report := do
  if request.batchSize = 0 then throw (.refused .emptyBatch)
  let network ← request.source.network
  if !network.isRunnable then throw (.fault (.breakdown .foreignWeights))
  let report ← Action.compute (network.probe request.batchSize request.seed request.tolerance)
  Action.log .info .probe report.summaryLine
  if let some directory := request.reportDirectory then
    (← ReportLog.openOrCreate directory).add report
  if !report.passed then
    Action.log .warning .check
      (s!"Reconstruction error {report.endToEnd.messageText 3} " ++
        s!"exceeds tolerance {report.tolerance.messageText 1}")
  return report

end InvertibleNet
