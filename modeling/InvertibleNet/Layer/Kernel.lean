/-
# Convolutions

Every convolution of a network has a three-by-three kernel, no bias and a
border of zeros one entry wide, so that only its stride changes the spatial
size. An output is the sum of the products of the kernel with the entries under
it, taken input channel by input channel, then row by row and column by column.
-/

import InvertibleNet.Binary.Single
import InvertibleNet.Tensor.Basic

namespace InvertibleNet

/-- The weights of a convolution, in the order output channel, input channel,
row, column. -/
structure Kernel where
  outChannels : Nat
  inChannels : Nat
  weights : Array Single
  deriving DecidableEq, Repr

/-- One weight of a kernel, with the place it is applied to. -/
structure Tap where
  channel : Nat
  row : Nat
  column : Nat
  weight : Single
  deriving DecidableEq, Repr

namespace Kernel

/-- Weights that lead to one output channel. -/
def tapCount (kernel : Kernel) : Nat := 9 * kernel.inChannels

/-- The weights that lead to one output channel, in the order of summation.
Zero weights are listed only on request. -/
def taps (kernel : Kernel) (keepZeros : Bool) (outChannel : Nat) : List Tap :=
  (List.range kernel.tapCount).filterMap fun index =>
    let weight := kernel.weights.getD (outChannel * kernel.tapCount + index) 0
    if keepZeros || !weight.isZero then some ⟨index / 9, index / 3 % 3, index % 3, weight⟩
    else none

/-- The weights of all output channels. -/
def tapTable (kernel : Kernel) (keepZeros : Bool) : Array (List Tap) :=
  Array.ofFn (n := kernel.outChannels) fun outChannel => kernel.taps keepZeros outChannel

end Kernel

/-- What a convolution makes of an extent: one output for every position of the
kernel that starts on a multiple of the stride. -/
def convolvedExtent (stride extent : Nat) : Nat := (extent - 1) / stride + 1

namespace Tensor

/-- An entry of an image with a border of zeros one entry wide. -/
@[inline] def borderedEntry (x : Tensor Single) (sample channel row column : Nat) : Single :=
  if row = 0 ∨ column = 0 then 0 else x.entry sample channel (row - 1) (column - 1)

/-- The sum of the products of some weights with the entries under them. -/
def weightedSum (x : Tensor Single) (taps : List Tap) (sample row column : Nat) : Single :=
  taps.foldl (fun sum tap =>
    sum + tap.weight * x.borderedEntry sample tap.channel (row + tap.row) (column + tap.column)) 0

/-- Whether all entries of one sample are finite. -/
def sampleIsFinite (x : Tensor Single) (sample : Nat) : Bool :=
  let size := x.shape.channels * x.shape.height * x.shape.width
  (List.range size).all fun place => (x.values.getD (sample * size + place) 0).isFinite

/-- Convolve a tensor with a kernel. A zero weight adds nothing to a sum of
finite entries, so it is left out for the samples that are finite; on the
others it can make a not-a-number and takes part. -/
def convolve (kernel : Kernel) (stride : Nat) (x : Tensor Single) : Tensor Single :=
  let sparse := kernel.tapTable false
  let full := Thunk.mk fun _ => kernel.tapTable true
  let finite := Array.ofFn (n := x.shape.batch) fun sample => x.sampleIsFinite sample
  ofFn ⟨x.shape.batch, kernel.outChannels, convolvedExtent stride x.shape.height,
      convolvedExtent stride x.shape.width⟩ fun sample channel row column =>
    let table := if finite.getD sample true then sparse else full.get
    x.weightedSum (table.getD channel []) sample (row * stride) (column * stride)

end Tensor

end InvertibleNet
