/-
# Faults

Every way in which an architecture or a tensor can be refused is one
constructor here, with the values that explain it. The wording is kept apart
from the causes: a fault is compared and proved about as data, and becomes
text in one place.
-/

import InvertibleNet.Tensor.Shape
import InvertibleNet.Decimal.Layout

namespace InvertibleNet

/-- Why one block of the schedule cannot be built. -/
inductive BlockFault where
  | emptyChannels
  | noPair (inChannels : Nat)
  | zeroMultiplier
  | emptyBottleneck (outChannels multiplier : Nat)
  | shrinkingChannels (outChannels inChannels : Nat)
  | oddHalves (inChannels : Nat)
  | oddDownsampling (inChannels : Nat)
  | downsampledWidth (inChannels outChannels : Nat)
  | unsupportedStride (stride : Nat)
  | dropoutRate (rate : Double)
  deriving DecidableEq, Repr

/-- Why an architecture cannot be built. -/
inductive ConfigFault where
  | noClasses
  | lengthsDiffer (channels blocks strides : Nat)
  | noStages
  | emptyStage (stage : Nat)
  | emptyStageChannels (stage : Nat)
  | stageTooWide (stage channels : Nat)
  | stageStride (stage stride : Nat)
  | defaultChannels (stage : Nat)
  | emptySchedule
  | cumulativeStride (downsamplings initialBlock : Nat)
  | emptyInput (channels height width : Nat)
  | initialBlockMisfit (height width initialBlock : Nat)
  | cumulativeStrideMisfit (height width stride : Nat)
  | inputChannels (channels initialBlock : Nat)
  | unknownPreset (name : String) (known : List String)
  | block (index : Nat) (fault : BlockFault)
  | described (text : String)
  deriving DecidableEq, Repr

/-- Why a tensor does not fit the operation that received it. -/
inductive ShapeFault where
  | oddSplit (channels : Nat)
  | splitPoint (channels point : Nat)
  | mergeMismatch (first second : Shape)
  | nothingLeft (pad channels : Nat)
  | psiMisfit (block : Nat) (input : Shape)
  | psiInverseMisfit (area : Nat) (input : Shape)
  | pairChannels (expected first second : Nat)
  | halfChannels (expected : Nat) (second : Shape)
  | coupling (expected actual : Shape)
  | inverseHalf (expected : Nat) (second : Shape)
  | inverseSum (expected actual : Shape)
  | networkInput (channels height width : Nat) (input : Shape)
  | pool (height width actualHeight actualWidth : Nat)
  | described (operation expected actual : String)
  deriving DecidableEq, Repr

/-- A computation that has no result at all: it is not refused but breaks off. -/
inductive Breakdown where
  | overflow
  | divisionByZero
  | emptyMaximum
  | emptyAxis
  | incompatibleShapes
  | foreignWeights
  deriving DecidableEq, Repr

/-- Everything that can go wrong in the arithmetic part of the library. -/
inductive Fault where
  | config (cause : ConfigFault)
  | shape (cause : ShapeFault)
  | breakdown (cause : Breakdown)
  deriving DecidableEq, Repr

def BlockFault.text : BlockFault → String
  | .emptyChannels => "channel counts must be non-zero"
  | .noPair inChannels => s!"in_channels={inChannels} cannot form a pair of halves"
  | .zeroMultiplier => "channel multiplier must be non-zero"
  | .emptyBottleneck outChannels multiplier =>
      s!"out_channels={outChannels} is smaller than the multiplier {multiplier}"
  | .shrinkingChannels outChannels inChannels =>
      s!"channels may only grow: 2 x out_channels={2 * outChannels} < in_channels={inChannels}"
  | .oddHalves inChannels => s!"in_channels={inChannels} cannot be split into two halves"
  | .oddDownsampling inChannels => s!"stride 2 needs an even in_channels, got {inChannels}"
  | .downsampledWidth inChannels outChannels =>
      let doubled := Count.saturate (2 * inChannels)
      s!"stride 2 needs out_channels = 2 x in_channels = {doubled}, got {outChannels}"
  | .unsupportedStride stride => s!"stride must be 1 or 2, got {stride}"
  | .dropoutRate rate => s!"dropout rate {rate.messageText} is outside [0, 1)"

def ConfigFault.text : ConfigFault → String
  | .noClasses => "num_classes must be non-zero"
  | .lengthsDiffer channels blocks strides =>
      s!"stage lists differ in length: channels={channels}, blocks={blocks}, strides={strides}"
  | .noStages => "at least one stage is required"
  | .emptyStage stage => s!"stage {stage} has zero blocks"
  | .emptyStageChannels stage => s!"stage {stage} has zero channels"
  | .stageTooWide stage channels => s!"stage {stage} channel count {channels} is too large"
  | .stageStride stage stride => s!"stage {stage} has stride {stride}, only 1 and 2 are supported"
  | .defaultChannels stage =>
      s!"default channel count of stage {stage} overflows; list the channels explicitly"
  | .emptySchedule => "empty block schedule"
  | .cumulativeStride downsamplings initialBlock =>
      s!"{downsamplings} stride-2 stages with initial block {initialBlock} " ++
        "overflow the cumulative stride"
  | .emptyInput channels height width =>
      s!"input shape {Count.listText [channels, height, width]} has an empty dimension"
  | .initialBlockMisfit height width initialBlock =>
      s!"input {height}x{width} is not divisible by the initial downsampling block {initialBlock}"
  | .cumulativeStrideMisfit height width stride =>
      s!"input {height}x{width} is not divisible by the cumulative stride {stride}"
  | .inputChannels channels initialBlock =>
      s!"{channels} channels with initial block {initialBlock} overflow the channel count"
  | .unknownPreset name known =>
      s!"unknown preset '{name}', known presets: " ++ ", ".intercalate known
  | .block index fault => s!"block #{index}: {fault.text}"
  | .described text => text

/-- The operation that refused its tensor, what it needs, and what it got. -/
def ShapeFault.parts : ShapeFault → String × String × String
  | .oddSplit channels => ("split", "an even, non-zero channel count", s!"{channels} channels")
  | .splitPoint channels point =>
      ("split", s!"a split point strictly inside 0..{channels}", s!"split point {point}")
  | .mergeMismatch first second =>
      ("merge", s!"matching batch and spatial dims, x1 is {first.text}", s!"x2 is {second.text}")
  | .nothingLeft pad channels =>
      ("injective pad inverse", s!"more than {pad} channels", s!"{channels} channels")
  | .psiMisfit block input => ("psi", s!"height and width divisible by {block}", input.text)
  | .psiInverseMisfit area input =>
      ("psi inverse", s!"channel count divisible by {area}", input.text)
  | .pairChannels expected first second =>
      ("block forward", s!"{expected} channels across the pair", s!"{first} + {second} channels")
  | .halfChannels expected second =>
      ("block forward", s!"x2 with {expected} channels", second.text)
  | .coupling expected actual => ("coupling", expected.text, actual.text)
  | .inverseHalf expected second =>
      ("block inverse", s!"x2 with {expected} channels", second.text)
  | .inverseSum expected actual => ("block inverse", s!"y1 of shape {expected.text}", actual.text)
  | .networkInput channels height width input =>
      ("network input", s!"[batch, {channels}, {height}, {width}]", input.text)
  | .pool height width actualHeight actualWidth =>
      ("pool", s!"{height}x{width} feature map", s!"{actualHeight}x{actualWidth}")
  | .described operation expected actual => (operation, expected, actual)

def Breakdown.text : Breakdown → String
  | .overflow => "a count ran past the largest word"
  | .divisionByZero => "division by zero"
  | .emptyMaximum => "the maximum of an empty tensor"
  | .emptyAxis => "an axis of extent zero"
  | .incompatibleShapes => "tensors of incompatible shapes"
  | .foreignWeights => "weights of another architecture"

/-- The text of a fault. -/
def Fault.message : Fault → String
  | .config cause => s!"configuration error: {cause.text}"
  | .shape cause =>
      let (operation, expected, actual) := cause.parts
      s!"dimension mismatch in {operation}: expected {expected}, got {actual}"
  | .breakdown cause => cause.text

def Fault.isConfig : Fault → Bool
  | .config _ => true
  | _ => false

def Fault.isShape : Fault → Bool
  | .shape _ => true
  | _ => false

end InvertibleNet
