/-
# Schedules

An architecture lists its stages: how many blocks, at which stride, with how
many channels. The schedule spells the stages out block by block. Only the
first block of a stage carries the stride of the stage, and each block takes
twice the output channels of the block before it, because what flows between
blocks is a pair of halves.
-/

import InvertibleNet.BlockSpec

namespace InvertibleNet.Schedule

/-- The strides of one stage, block by block. -/
def stageStrides (depth stride : Nat) : List Nat :=
  match depth with
  | 0 => []
  | rest + 1 => stride :: List.replicate rest 1

/-- The strides of all blocks. -/
def flattenedStrides (blocks strides : List Nat) : List Nat :=
  (blocks.zip strides).flatMap fun (depth, stride) => stageStrides depth stride

/-- The output channels of all blocks. -/
def flattenedChannels (channels blocks : List Nat) : List Nat :=
  (channels.zip blocks).flatMap fun (width, depth) => List.replicate depth width

/-- Number the blocks and hand each one the width that the block before it
leaves behind. -/
def chain (index inChannels : Nat) : List (Nat × Nat) → List BlockSpec
  | [] => []
  | (outChannels, stride) :: rest =>
      { index, inChannels, outChannels, stride, isFirst := index = 0 } ::
        chain (index + 1) (2 * outChannels) rest

/-- What is wrong with the stage lists, if anything is. The lists are never
cut to the shortest of them. -/
def stageFault? (channels blocks strides : List Nat) : Option ConfigFault :=
  if channels.length ≠ blocks.length ∨ blocks.length ≠ strides.length then
    some (.lengthsDiffer channels.length blocks.length strides.length)
  else if blocks.isEmpty then some .noStages
  else if let some stage := blocks.findIdx? (· = 0) then some (.emptyStage stage)
  else if let some stage := channels.findIdx? (· = 0) then some (.emptyStageChannels stage)
  else if let some stage := channels.findIdx? (fun width => Count.limit ≤ 4 * width) then
    some (.stageTooWide stage (channels.getD stage 0))
  else if let some stage := strides.findIdx? (fun stride => stride ≠ 1 ∧ stride ≠ 2) then
    some (.stageStride stage (strides.getD stage 0))
  else none

/-- The schedule of the listed stages. The blocks are not validated here. -/
def expand (inChannels : Nat) (channels blocks strides : List Nat) :
    Except Fault (List BlockSpec) :=
  match stageFault? channels blocks strides with
  | some fault => .error (.config fault)
  | none =>
      .ok (chain 0 inChannels
        ((flattenedChannels channels blocks).zip (flattenedStrides blocks strides)))

/-- The default width of one stage: half the channels that enter the network,
four times as many at each further stage. -/
def defaultWidth (inChannels stage : Nat) : Except Fault Nat :=
  match (Count.checkedPower 4 stage).bind fun growth => Count.checked (inChannels / 2 * growth) with
  | some width => .ok width
  | none => .error (.config (.defaultChannels stage))

/-- The default widths of the given number of stages from one stage on. The walk
ends at the first stage whose width has no value. -/
def defaultWidths (inChannels stage : Nat) : Nat → Except Fault (List Nat)
  | 0 => .ok []
  | count + 1 => do
      let width ← defaultWidth inChannels stage
      let rest ← defaultWidths inChannels (stage + 1) count
      return width :: rest

/-- The default widths of all stages. -/
def defaultChannels (inChannels stages : Nat) : Except Fault (List Nat) :=
  defaultWidths inChannels 0 stages

end InvertibleNet.Schedule
