/-
# Coupling blocks

A block maps a pair `(first, second)` to `(psi second, F second + psi first)`,
where `psi` rearranges by the stride of the block and `F`, the residual map, is
any map with the right shapes. The inverse never inverts `F`: it gets `second`
back from the first component, evaluates `F` once more and subtracts. A block
that grows appends zero channels to the merged pair and cuts it in the middle;
its inverse drops them again.

Nothing here depends on how values are added or what `F` computes. Memory is left
aside, but for the steps named `InMemory`: they break off where the tensor that the
block pads cannot exist. What `F` needs for itself is left aside there too.
-/

import InvertibleNet.BlockSpec
import InvertibleNet.Tensor.Channels
import InvertibleNet.Tensor.Psi

namespace InvertibleNet

universe u

/-- A coupling block: its specification and its residual map. -/
structure Coupling (α : Type u) where
  spec : BlockSpec
  residual : Tensor α → Tensor α

namespace Coupling

variable {α : Type u} [Zero α]

/-- The rearrangement of the block. -/
def psi (block : Coupling α) : Psi := ⟨block.spec.stride⟩

/-- The pair that the two maps of the block see: the given one, or the halves of
the padded merge if the block grows. -/
def grow (block : Coupling α) (pair : Pair α) : Except Fault (Pair α) :=
  if 0 < block.spec.pad then do
    let merged ← pair.merge
    (merged.padChannels block.spec.pad).split
  else .ok pair

/-- `grow` as far as memory goes. -/
def growInMemory (block : Coupling α) (pair : Pair α) : Except Fault (Pair α) :=
  if 0 < block.spec.pad then do
    let merged ← pair.1.merge pair.2
    let padded ← merged.pad block.spec.pad
    padded.split
  else .ok pair

/-- Undo `grow`: drop the padded channels and cut in the middle of the rest. -/
def shrink (block : Coupling α) (pair : Pair α) : Except Fault (Pair α) :=
  if 0 < block.spec.pad then do
    let merged ← pair.merge
    let kept ← merged.unpadChannels block.spec.pad
    kept.splitAt (block.spec.inChannels / 2)
  else .ok pair

/-- What the residual map makes of a half. An image without pixels has no
convolution, so it breaks off. -/
def update (block : Coupling α) (half : Tensor α) : Except Fault (Tensor α) :=
  if half.shape.hasPixels then .ok (block.residual half) else .error (.breakdown .emptyAxis)

/-- Couple two halves: rearrange both, and add to the first what the residual map
makes of the second. -/
def couple [Add α] (block : Coupling α) (pair : Pair α) : Except Fault (Pair α) := do
  if pair.2.shape.channels ≠ block.spec.halfChannels then
    throw (.shape (.halfChannels block.spec.halfChannels pair.2.shape))
  let firstMoved ← block.psi.forward pair.1
  let secondMoved ← block.psi.forward pair.2
  let update ← block.update pair.2
  if update.shape ≠ firstMoved.shape then
    throw (.shape (.coupling firstMoved.shape update.shape))
  return (secondMoved, update + firstMoved)

/-- Undo `couple`: the second half comes back first, and what the residual map
makes of it is taken away again. -/
def uncouple [Add α] [Neg α] (block : Coupling α) (pair : Pair α) : Except Fault (Pair α) := do
  let second ← block.psi.inverse pair.1
  if second.shape.channels ≠ block.spec.halfChannels then
    throw (.shape (.inverseHalf block.spec.halfChannels second.shape))
  let update := -(← block.update second)
  if update.shape ≠ pair.2.shape then
    throw (.shape (.inverseSum update.shape pair.2.shape))
  let first ← block.psi.inverse (update + pair.2)
  return (first, second)

/-- One step forward. -/
def forward [Add α] (block : Coupling α) (pair : Pair α) : Except Fault (Pair α) := do
  if pair.1.shape.channels + pair.2.shape.channels ≠ block.spec.inChannels then
    throw (.shape (.pairChannels block.spec.inChannels pair.1.shape.channels
      pair.2.shape.channels))
  block.couple (← block.grow pair)

/-- One step forward as far as memory goes. -/
def forwardInMemory [Add α] (block : Coupling α) (pair : Pair α) : Except Fault (Pair α) := do
  if pair.1.shape.channels + pair.2.shape.channels ≠ block.spec.inChannels then
    throw (.shape (.pairChannels block.spec.inChannels pair.1.shape.channels
      pair.2.shape.channels))
  block.couple (← block.growInMemory pair)

/-- One step back. -/
def inverse [Add α] [Neg α] (block : Coupling α) (pair : Pair α) : Except Fault (Pair α) := do
  block.shrink (← block.uncouple pair)

end Coupling

end InvertibleNet
