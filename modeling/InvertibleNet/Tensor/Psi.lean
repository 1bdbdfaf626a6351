/-
# The space-to-depth rearrangement

Psi cuts every image into square blocks and turns the place of a pixel inside
its block into channels. It is a permutation of the values: the array is seen
with six axes, the two axes inside the blocks move in front of the channels,
and the result is seen with four axes again. The inverse moves them back. A
block of zero or one leaves a tensor as it is.

An empty tensor has no values to move, but it is seen with the same axes. Of the
extents that come out as zero only that of the batch is certain to stay zero, so
the result may have other extents than a formula gives, or none at all.
-/

import InvertibleNet.Fault
import InvertibleNet.Tensor.Basic
import InvertibleNet.Tensor.RowMajor

namespace InvertibleNet

universe u

/-- The rearrangement with a given block. -/
structure Psi where
  block : Nat
  deriving DecidableEq, Repr

namespace Psi

variable {α : Type u} [Zero α]

def isIdentity (psi : Psi) : Bool := psi.block ≤ 1

/-- From a position with the block axes in front to one with them beside the
spatial axes. -/
def interleave : List Nat → List Nat
  | [sample, blockRow, blockColumn, channel, row, column] =>
      [sample, channel, row, blockRow, column, blockColumn]
  | other => other

/-- From a position with the block axes beside the spatial axes to one with
them in front. -/
def collect : List Nat → List Nat
  | [sample, channel, row, blockRow, column, blockColumn] =>
      [sample, blockRow, blockColumn, channel, row, column]
  | other => other

/-- Move the places inside the blocks into channels; height and width are taken
to be multiples of the block. -/
def spaceToDepth (block : Nat) (x : Tensor α) : Tensor α :=
  let ⟨batch, channels, height, width⟩ := x.shape
  let rows := height / block
  let columns := width / block
  { shape := ⟨batch, block * block * channels, rows, columns⟩
    values := RowMajor.rearrange [batch, channels, rows, block, columns, block]
      [batch, block, block, channels, rows, columns] interleave x.values
    size_eq := by simp [RowMajor.rearrange, RowMajor.size, Shape.size, Nat.mul_assoc] }

/-- Move channels back into the blocks; the number of channels is taken to be a
multiple of the area of the block. -/
def depthToSpace (block : Nat) (x : Tensor α) : Tensor α :=
  let ⟨batch, depth, rows, columns⟩ := x.shape
  let channels := depth / (block * block)
  { shape := ⟨batch, channels, rows * block, columns * block⟩
    values := RowMajor.rearrange [batch, block, block, channels, rows, columns]
      [batch, channels, rows, block, columns, block] collect x.values
    size_eq := by simp [RowMajor.rearrange, RowMajor.size, Shape.size, Nat.mul_assoc] }

/-- The extents of an empty tensor after the forward rearrangement. -/
def collectedExtents? (block : Nat) (shape : Shape) : Option (List Nat) := do
  let ⟨batch, channels, height, width⟩ := shape
  let rows := height / block
  let columns := width / block
  let six ← RowMajor.reshaped? shape.toList [batch, channels, rows, block, columns, block]
  RowMajor.reshaped? (collect six) [batch, block * block * channels, rows, columns]

/-- The extents of an empty tensor after the inverse rearrangement. -/
def interleavedExtents? (block : Nat) (shape : Shape) : Option (List Nat) := do
  let ⟨batch, depth, rows, columns⟩ := shape
  let channels := depth / (block * block)
  let six ← RowMajor.reshaped? shape.toList [batch, block, block, channels, rows, columns]
  RowMajor.reshaped? (interleave six) [batch, channels, rows * block, columns * block]

/-- The empty tensor of the given extents, if there are any. -/
def emptyOf (extents? : Option (List Nat)) : Except Fault (Tensor α) :=
  match extents?.bind Tensor.empty? with
  | some x => .ok x
  | none => .error (.breakdown .emptyAxis)

/-- From `[b, c, h, w]` to `[b, c·s², h/s, w/s]` for the block `s`. -/
def forward (psi : Psi) (x : Tensor α) : Except Fault (Tensor α) :=
  if psi.isIdentity then .ok x
  else if x.shape.height % psi.block ≠ 0 ∨ x.shape.width % psi.block ≠ 0 then
    .error (.shape (.psiMisfit psi.block x.shape))
  else if x.shape.size = 0 then emptyOf (collectedExtents? psi.block x.shape)
  else .ok (spaceToDepth psi.block x)

/-- From `[b, c·s², h, w]` to `[b, c, h·s, w·s]` for the block `s`. The area of
the block has to fit a word. -/
def inverse (psi : Psi) (x : Tensor α) : Except Fault (Tensor α) :=
  if psi.isIdentity then .ok x
  else
    match Count.checked (psi.block * psi.block) with
    | none => .error (.breakdown .overflow)
    | some area =>
        if x.shape.channels % area ≠ 0 then .error (.shape (.psiInverseMisfit area x.shape))
        else if x.shape.size = 0 then emptyOf (interleavedExtents? psi.block x.shape)
        else .ok (depthToSpace psi.block x)

end Psi

end InvertibleNet
