/-
# The distance of two tensors

The largest absolute difference between the entries of two tensors of single
precision. Shapes that differ are stretched to each other where one of them has
extent one on an axis; otherwise there is no difference to take. An empty
difference has no largest entry.
-/

import InvertibleNet.Binary.Single
import InvertibleNet.Tensor.Channels

namespace InvertibleNet

/-- The common extent of two axes of which the shorter one can be repeated. -/
def stretchedExtent? (first second : Nat) : Option Nat :=
  if first = second then some first
  else if first = 1 then some second
  else if second = 1 then some first
  else none

namespace Shape

/-- The common shape of two shapes. -/
def stretched? (first second : Shape) : Option Shape := do
  return {
    batch := ← stretchedExtent? first.batch second.batch
    channels := ← stretchedExtent? first.channels second.channels
    height := ← stretchedExtent? first.height second.height
    width := ← stretchedExtent? first.width second.width }

end Shape

namespace Tensor

/-- An entry of a tensor whose axes of extent one are repeated. -/
def stretchedEntry (x : Tensor Single) (sample channel row column : Nat) : Single :=
  x.entry (if x.shape.batch = 1 then 0 else sample) (if x.shape.channels = 1 then 0 else channel)
    (if x.shape.height = 1 then 0 else row) (if x.shape.width = 1 then 0 else column)

/-- The difference of two tensors. -/
def difference (x y : Tensor Single) : Except Fault (Tensor Single) :=
  if x.shape = y.shape then .ok (x.combine (· - ·) y)
  else
    match x.shape.stretched? y.shape with
    | none => .error (.breakdown .incompatibleShapes)
    | some shape =>
        .ok (ofFn shape fun sample channel row column =>
          x.stretchedEntry sample channel row column - y.stretchedEntry sample channel row column)

/-- The largest of the values. -/
def maximum (x : Tensor Single) : Except Fault Single :=
  match x.values[0]? with
  | none => .error (.breakdown .emptyMaximum)
  | some first => .ok (x.values.foldl .larger first)

/-- The largest absolute difference of two tensors. -/
def maxAbsError (x y : Tensor Single) : Except Fault Single := do
  ((← x.difference y).map .abs).maximum

end Tensor

end InvertibleNet
