/-
# Describing an architecture

The summary of an architecture: its blocks, the extents of its features, and
how many values its network stores. The network is built to count them, but
never run.
-/

import InvertibleNet.Command.Source

namespace InvertibleNet

structure Summary where
  config : NetworkConfig
  blocks : List BlockSpec
  /-- Extents of the features of one sample. -/
  features : SampleShape
  parameters : Nat
  deriving DecidableEq, Repr

namespace Summary

def depth (summary : Summary) : Nat := scheduleDepth summary.blocks

/-- How many blocks pad their input. -/
def injectiveBlocks (summary : Summary) : Nat := summary.blocks.countP (·.isInjective)

end Summary

/-- Describe the architecture of a source. -/
def Source.summarise (source : Source) : Action Summary := do
  let config ← source.resolve
  let blocks ← Action.compute config.schedule
  let geometry ← Action.compute config.geometry
  let network ← config.construct
  let parameters := network.parameterCount
  let (height, width) ← Action.compute geometry.pooledSize
  let channels := (blocks.getLast?.map (2 * ·.outChannels)).getD 0
  Action.log .info .summary
    s!"i-RevNet-{scheduleDepth blocks}: {blocks.length} blocks, {parameters} parameters"
  return { config, blocks, features := ⟨channels, height, width⟩, parameters }

end InvertibleNet
