/-
# Tensor shapes

Every tensor of the library has four axes: samples of a batch, channels, rows
and columns. Values lie in row-major order, the column running fastest.
-/

import InvertibleNet.Count
import InvertibleNet.Tensor.RowMajor

namespace InvertibleNet

structure Shape where
  batch : Nat
  channels : Nat
  height : Nat
  width : Nat
  deriving DecidableEq, Repr

namespace Shape

def toList (shape : Shape) : List Nat :=
  [shape.batch, shape.channels, shape.height, shape.width]

/-- How many values a tensor of the shape has. -/
def size (shape : Shape) : Nat := shape.batch * shape.channels * shape.height * shape.width

/-- The place of an entry in row-major order. -/
@[inline] def offset (shape : Shape) (sample channel row column : Nat) : Nat :=
  ((sample * shape.channels + channel) * shape.height + row) * shape.width + column

/-- Whether all four indices are inside the shape. -/
@[inline] def Contains (shape : Shape) (sample channel row column : Nat) : Prop :=
  sample < shape.batch ∧ channel < shape.channels ∧ row < shape.height ∧ column < shape.width

instance (shape : Shape) (sample channel row column : Nat) :
    Decidable (shape.Contains sample channel row column) := by
  unfold Contains
  infer_instance

def text (shape : Shape) : String := Count.listText shape.toList

/-- Whether an image of the shape has a pixel. -/
def hasPixels (shape : Shape) : Bool := 0 < shape.height && 0 < shape.width

/-- Whether an array of the shape can exist: the product of the extents other
than zero fits a signed word, and so does the number of bytes of the values,
four for each. -/
def isAddressable (shape : Shape) : Bool :=
  (shape.toList.filter (· ≠ 0)).foldl (· * ·) 1 < Count.signedLimit &&
    4 * shape.size < Count.signedLimit

theorem offset_lt_size {shape : Shape} {sample channel row column : Nat}
    (inside : shape.Contains sample channel row column) :
    shape.offset sample channel row column < shape.size :=
  RowMajor.mul_add_lt_mul
    (RowMajor.mul_add_lt_mul (RowMajor.mul_add_lt_mul inside.1 inside.2.1) inside.2.2.1)
    inside.2.2.2

/-- Every place of a tensor is the offset of an entry. -/
theorem exists_offset {shape : Shape} {place : Nat} (bound : place < shape.size) :
    ∃ sample channel row column, shape.Contains sample channel row column ∧
      shape.offset sample channel row column = place := by
  obtain ⟨batch, channels, height, width⟩ := shape
  simp only [size] at bound
  have width_pos : 0 < width := Nat.pos_of_ne_zero fun h => by simp [h] at bound
  have height_pos : 0 < height := Nat.pos_of_ne_zero fun h => by simp [h] at bound
  have channels_pos : 0 < channels := Nat.pos_of_ne_zero fun h => by simp [h] at bound
  refine ⟨place / width / height / channels, place / width / height % channels,
    place / width % height, place % width,
    ⟨?_, Nat.mod_lt _ channels_pos, Nat.mod_lt _ height_pos, Nat.mod_lt _ width_pos⟩, ?_⟩
  · rw [Nat.div_lt_iff_lt_mul channels_pos, Nat.div_lt_iff_lt_mul height_pos,
      Nat.div_lt_iff_lt_mul width_pos]
    exact bound
  · simp only [offset, Nat.div_add_mod']

end Shape

end InvertibleNet
