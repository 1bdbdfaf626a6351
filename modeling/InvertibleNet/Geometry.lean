/-
# Geometry

The spatial bookkeeping of a whole network: the extents of one input sample,
the block of the rearrangement at the entrance, and the factor by which height
and width shrink on the way to the features.
-/

import InvertibleNet.Fault

namespace InvertibleNet

/-- The extents of one input sample. -/
structure SampleShape where
  channels : Nat
  height : Nat
  width : Nat
  deriving DecidableEq, Repr

def SampleShape.toList (shape : SampleShape) : List Nat :=
  [shape.channels, shape.height, shape.width]

structure Geometry where
  input : SampleShape
  /-- Block of the rearrangement at the entrance; one for none. -/
  initialBlock : Nat
  /-- Product of the initial block and of the strides of all stages. -/
  cumulativeStride : Nat
  deriving DecidableEq, Repr

namespace Geometry

/-- What keeps an input of this shape from passing through, if anything does. -/
def fault? (geometry : Geometry) : Option ConfigFault :=
  let ⟨channels, height, width⟩ := geometry.input
  if channels = 0 ∨ height = 0 ∨ width = 0 then some (.emptyInput channels height width)
  else if height % geometry.initialBlock ≠ 0 ∨ width % geometry.initialBlock ≠ 0 then
    some (.initialBlockMisfit height width geometry.initialBlock)
  else if height % geometry.cumulativeStride ≠ 0 ∨ width % geometry.cumulativeStride ≠ 0 then
    some (.cumulativeStrideMisfit height width geometry.cumulativeStride)
  else if Count.limit ≤ geometry.initialBlock * geometry.initialBlock * channels then
    some (.inputChannels channels geometry.initialBlock)
  else none

/-- The geometry of a network with the given initial block, where zero means
none, and the given stage strides. Each stride of two halves height and width;
the other strides do not count here, they are refused with the schedule. -/
def ofStrides (input : SampleShape) (initialBlock : Nat) (strides : List Nat) :
    Except Fault Geometry :=
  let block := max initialBlock 1
  let downsamplings := strides.count 2
  match (Count.checkedPower 2 downsamplings).bind fun factor => Count.checked (factor * block) with
  | none => .error (.config (.cumulativeStride downsamplings block))
  | some cumulativeStride =>
      let geometry : Geometry := ⟨input, block, cumulativeStride⟩
      match geometry.fault? with
      | some fault => .error (.config fault)
      | none => .ok geometry

/-- Channels that enter the first block. Every accepted geometry has them; the
product can only overflow in a geometry that was put together by hand. -/
def inChannels (geometry : Geometry) : Except Fault Nat :=
  match Count.checkedProduct
      [geometry.input.channels, geometry.initialBlock, geometry.initialBlock] with
  | some channels => .ok channels
  | none => .error (.breakdown .overflow)

/-- Height and width of the features, which is also the window of the pooling
in front of the classifier. -/
def pooledSize (geometry : Geometry) : Except Fault (Nat × Nat) :=
  if geometry.cumulativeStride = 0 then .error (.breakdown .divisionByZero)
  else .ok (geometry.input.height / geometry.cumulativeStride,
    geometry.input.width / geometry.cumulativeStride)

end Geometry

end InvertibleNet
