/-
# Network configurations

The eight values that describe a network. Everything else about it follows:
its geometry, the widths of its stages, its schedule. A plan is a configuration
that has passed every check on counts, and is what a network is built from.
-/

import InvertibleNet.Schedule
import InvertibleNet.Preset

namespace InvertibleNet

/-- The description of a network. -/
structure NetworkConfig where
  /-- Blocks per stage. -/
  blocks : List Nat
  /-- Stride of the first block of each stage. -/
  strides : List Nat
  classes : Nat
  input : SampleShape
  /-- Output channels per stage; the default widths if absent. -/
  channels : Option (List Nat)
  /-- Block of the rearrangement at the entrance, zero for none. -/
  initialBlock : Nat
  dropoutRate : Double
  /-- Divisor of the width inside the residual maps. -/
  multiplier : Nat
  deriving DecidableEq, Repr

/-- The configuration of a preset. -/
def Preset.config (preset : Preset) : NetworkConfig where
  blocks := preset.blocks
  strides := preset.strides
  classes := preset.classes
  input := preset.input
  channels := some preset.channels
  initialBlock := preset.initialBlock
  dropoutRate := preset.dropoutRate
  multiplier := preset.multiplier

namespace NetworkConfig

def geometry (config : NetworkConfig) : Except Fault Geometry :=
  Geometry.ofStrides config.input config.initialBlock config.strides

/-- Output channels of every stage, listed or by default. -/
def stageChannels (config : NetworkConfig) : Except Fault (List Nat) := do
  let geometry ← config.geometry
  match config.channels with
  | some channels => return channels
  | none => Schedule.defaultChannels (← geometry.inChannels) config.blocks.length

/-- The validated schedule. -/
def schedule (config : NetworkConfig) : Except Fault (List BlockSpec) := do
  let geometry ← config.geometry
  let channels ← config.stageChannels
  let specs ← Schedule.expand (← geometry.inChannels) channels config.blocks config.strides
  specs.forM fun spec => spec.validate config.multiplier
  return specs

end NetworkConfig

/-- What is known of a network before its weights: the sizes it works with and
the specification of every block. -/
structure Plan where
  geometry : Geometry
  specs : List BlockSpec
  inChannels : Nat
  /-- Channels of the features. -/
  outChannels : Nat
  /-- Height and width of the features. -/
  pooled : Nat × Nat
  classes : Nat
  deriving DecidableEq, Repr

/-- Convolutions and linear maps on the longest path: three to a block and one
classifier. -/
def scheduleDepth (specs : List BlockSpec) : Nat := specs.length * 3 + 1

/-- Put a plan together. There is nothing behind an empty schedule. -/
def Plan.assemble (geometry : Geometry) (specs : List BlockSpec) (classes : Nat) :
    Except Fault Plan :=
  match specs.getLast? with
  | none => .error (.config .emptySchedule)
  | some last => do
      let inChannels ← geometry.inChannels
      let pooled ← geometry.pooledSize
      return { geometry, specs, inChannels, outChannels := 2 * last.outChannels, pooled, classes }

/-- Check every count of a configuration. -/
def NetworkConfig.plan (config : NetworkConfig) : Except Fault Plan :=
  if config.classes = 0 then .error (.config .noClasses)
  else do
    let geometry ← config.geometry
    let specs ← config.schedule
    Plan.assemble geometry specs config.classes

/-- The line that announces a network under construction. -/
def Plan.announcement (plan : Plan) : String :=
  s!"Building i-RevNet: {plan.specs.length} blocks ({scheduleDepth plan.specs} layers), " ++
    s!"{plan.inChannels} → {plan.outChannels} channels, " ++
    s!"pooled {plan.pooled.1}x{plan.pooled.2}"

end InvertibleNet
