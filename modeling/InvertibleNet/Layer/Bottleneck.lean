/-
# Residual maps

The residual map of a block is a bottleneck: three convolutions, the first two
into a narrow width and the last one out of it, with a normalisation and a
rectifier in front of each. The first block of a network has nothing in front
of its first convolution, because its input has not been through any layer.
-/

import InvertibleNet.BlockSpec
import InvertibleNet.Layer.Kernel
import InvertibleNet.Layer.Norm

namespace InvertibleNet

/-- A linear map from features to classes, its weights in the order feature,
class. -/
structure Linear where
  features : Nat
  classes : Nat
  weights : Array Single
  bias : Array Single
  deriving DecidableEq, Repr

/-- Where the weights of a new network come from. -/
structure WeightSource (m : Type → Type) where
  kernel : (outChannels inChannels : Nat) → m Kernel
  norm : (channels : Nat) → m Norm
  linear : (features classes : Nat) → m Linear

/-- The residual map of a block. -/
structure Bottleneck where
  prologue : Option Norm
  enter : Kernel
  enterNorm : Norm
  inner : Kernel
  innerNorm : Norm
  leave : Kernel
  deriving DecidableEq, Repr

namespace Bottleneck

/-- Draw the residual map of a block. -/
def draw {m : Type → Type} [Monad m] (source : WeightSource m) (spec : BlockSpec)
    (multiplier : Nat) : m Bottleneck := do
  let half := spec.halfChannels
  let width := spec.bottleneckWidth multiplier
  let prologue ← if spec.isFirst then pure none else some <$> source.norm half
  let enter ← source.kernel width half
  let enterNorm ← source.norm width
  let inner ← source.kernel width width
  let innerNorm ← source.norm width
  let leave ← source.kernel spec.outChannels width
  return { prologue, enter, enterNorm, inner, innerNorm, leave }

/-- Whether arrays for the weights of a residual map can exist. -/
def canExist (spec : BlockSpec) (multiplier : Nat) : Bool :=
  let half := spec.halfChannels
  let width := spec.bottleneckWidth multiplier
  (Shape.mk width half 3 3).isAddressable && (Shape.mk width width 3 3).isAddressable &&
    (Shape.mk spec.outChannels width 3 3).isAddressable

/-- Apply the residual map at the stride of its block. Dropout takes no part:
a network is only ever run as it is, never trained. -/
def apply (bottleneck : Bottleneck) (stride : Nat) (x : Tensor Single) : Tensor Single :=
  let prepared := match bottleneck.prologue with
    | some norm => (x.normalise norm).rectify
    | none => x
  let entered := ((prepared.convolve bottleneck.enter stride).normalise
    bottleneck.enterNorm).rectify
  let passed := ((entered.convolve bottleneck.inner 1).normalise bottleneck.innerNorm).rectify
  passed.convolve bottleneck.leave 1

/-- Apply the residual map to any tensor. It breaks off at one of another width
than the first convolution takes, and at an image without pixels. -/
def run (bottleneck : Bottleneck) (stride : Nat) (x : Tensor Single) :
    Except Fault (Tensor Single) :=
  if x.shape.channels ≠ bottleneck.enter.inChannels then .error (.breakdown .incompatibleShapes)
  else if x.shape.hasPixels then .ok (bottleneck.apply stride x)
  else .error (.breakdown .emptyAxis)

/-- Whether the layers fit each other and the half that the block feeds them. -/
def accepts (bottleneck : Bottleneck) (spec : BlockSpec) : Bool :=
  (bottleneck.prologue.all fun norm => norm.channels = spec.halfChannels) &&
    bottleneck.enter.inChannels = spec.halfChannels &&
    bottleneck.enter.outChannels = bottleneck.enterNorm.channels &&
    bottleneck.inner.inChannels = bottleneck.enter.outChannels &&
    bottleneck.inner.outChannels = bottleneck.innerNorm.channels &&
    bottleneck.leave.inChannels = bottleneck.inner.outChannels

/-- Whether the residual map is one for the block: it takes the half and gives as
many channels as the block puts out. -/
def fits (bottleneck : Bottleneck) (spec : BlockSpec) : Bool :=
  bottleneck.accepts spec && bottleneck.leave.outChannels = spec.outChannels

/-- All stored values of the residual map. -/
def parameterCount (bottleneck : Bottleneck) : Nat :=
  (bottleneck.prologue.map (·.parameterCount)).getD 0 + bottleneck.enter.weights.size +
    bottleneck.enterNorm.parameterCount + bottleneck.inner.weights.size +
    bottleneck.innerNorm.parameterCount + bottleneck.leave.weights.size

end Bottleneck

end InvertibleNet
