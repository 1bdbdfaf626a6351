/-
# Making a checkpoint

A network with fresh weights is built and written out. The source has to name
an architecture; an existing checkpoint is refused.
-/

import InvertibleNet.Command.Source

namespace InvertibleNet

/-- Write a fresh network into a directory. The result is how many values it
stores. -/
def Source.initialise (source : Source) (directory : String) : Action Nat := do
  if let .checkpoint _ := source then throw (.refused .checkpointGiven)
  let config ← source.resolve
  let network ← config.construct
  Action.log .info .init s!"Initialised {network.plan.specs.length} blocks"
  let checkpoint ← Checkpoint.create directory
  checkpoint.save network config
  return network.parameterCount

end InvertibleNet
