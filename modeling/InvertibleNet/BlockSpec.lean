/-
# Block specifications

One block of the network is fixed by five values before any weight exists. The
channel arithmetic of the block follows from them, and `validate` decides
whether a block with that arithmetic can be run in both directions.
-/

import InvertibleNet.Fault

namespace InvertibleNet

/-- One entry of the schedule. A block takes a pair of tensors with
`inChannels` channels together and returns two halves of `outChannels` each. -/
structure BlockSpec where
  index : Nat
  inChannels : Nat
  outChannels : Nat
  stride : Nat
  isFirst : Bool
  deriving DecidableEq, Repr

namespace BlockSpec

/-- Zero channels appended to the input. Only a stride-1 block pads; a stride-2
block gets its additional channels from the rearrangement. -/
def pad (spec : BlockSpec) : Nat :=
  if spec.stride = 1 then Count.saturate (2 * spec.outChannels) - spec.inChannels else 0

/-- Whether the block pads, so that its image is a proper subspace. -/
def isInjective (spec : BlockSpec) : Bool := 0 < spec.pad

/-- Channels of the half that feeds the residual map. -/
def halfChannels (spec : BlockSpec) : Nat := (spec.inChannels + spec.pad) / 2

/-- Channels inside the residual map. -/
def bottleneckWidth (spec : BlockSpec) (multiplier : Nat) : Nat :=
  if multiplier = 0 then 0 else spec.outChannels / multiplier

/-- The first thing that is wrong with a block, if anything is: both directions
need two non-empty halves of the width that the rearrangement and the residual
map agree on. -/
def fault? (spec : BlockSpec) (multiplier : Nat) : Option BlockFault :=
  if spec.inChannels = 0 ∨ spec.outChannels = 0 then some .emptyChannels
  else if spec.inChannels < 2 then some (.noPair spec.inChannels)
  else if multiplier = 0 then some .zeroMultiplier
  else if spec.bottleneckWidth multiplier = 0 then
    some (.emptyBottleneck spec.outChannels multiplier)
  else if spec.stride = 1 then
    if Count.saturate (2 * spec.outChannels) < spec.inChannels then
      some (.shrinkingChannels spec.outChannels spec.inChannels)
    else if spec.isInjective = false ∧ spec.inChannels % 2 ≠ 0 then
      some (.oddHalves spec.inChannels)
    else none
  else if spec.stride = 2 then
    if spec.inChannels % 2 ≠ 0 then some (.oddDownsampling spec.inChannels)
    else if Count.checked (2 * spec.inChannels) ≠ some spec.outChannels then
      some (.downsampledWidth spec.inChannels spec.outChannels)
    else none
  else some (.unsupportedStride spec.stride)

/-- Accept a block or name what is wrong with it. -/
def validate (spec : BlockSpec) (multiplier : Nat) : Except Fault Unit :=
  match spec.fault? multiplier with
  | some fault => .error (.config (.block spec.index fault))
  | none => .ok ()

end BlockSpec

end InvertibleNet
