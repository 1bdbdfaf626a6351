/-
# The invertible branch

The invertible part of a network: a rearrangement at the entrance, a cut into a
pair, a stack of coupling blocks, and the merge of the last pair. The inverse
walks the stack from its end and undoes the rearrangement. Both directions can
also be traced, which keeps the merged value in front of and behind every
block. The trace forward also exists for blocks that look at memory.
-/

import InvertibleNet.Coupling.Block
import InvertibleNet.Geometry

namespace InvertibleNet

universe u

/-- The invertible branch of a network. -/
structure Branch (α : Type u) where
  input : SampleShape
  /-- Block of the rearrangement at the entrance. -/
  initialBlock : Nat
  /-- Channels behind that rearrangement. -/
  inChannels : Nat
  blocks : List (Coupling α)

namespace Branch

variable {α : Type u} [Zero α]

/-- Whether a tensor holds samples of the shape that the branch takes. -/
def Accepts (branch : Branch α) (x : Tensor α) : Prop :=
  x.shape.channels = branch.input.channels ∧ x.shape.height = branch.input.height ∧
    x.shape.width = branch.input.width

instance (branch : Branch α) (x : Tensor α) : Decidable (branch.Accepts x) := by
  unfold Accepts
  infer_instance

/-- What the first block receives, before the cut. -/
def enter (branch : Branch α) (x : Tensor α) : Except Fault (Tensor α) :=
  if branch.Accepts x then (Psi.mk branch.initialBlock).forward x
  else
    .error (.shape (.networkInput branch.input.channels branch.input.height branch.input.width
      x.shape))

/-- Run blocks forward, one after the other. -/
def runForward [Add α] (blocks : List (Coupling α)) (pair : Pair α) : Except Fault (Pair α) :=
  blocks.foldlM (fun state block => block.forward state) pair

/-- Run the inverses of blocks, in the order of the list. -/
def runInverse [Add α] [Neg α] (blocks : List (Coupling α)) (pair : Pair α) :
    Except Fault (Pair α) :=
  blocks.foldlM (fun state block => block.inverse state) pair

/-- From an input to its features. -/
def forward [Add α] (branch : Branch α) (x : Tensor α) : Except Fault (Tensor α) := do
  let entered ← branch.enter x
  let pair ← entered.splitAt (branch.inChannels / 2)
  let last ← runForward branch.blocks pair
  last.merge

/-- From features to the input they came from. -/
def inverse [Add α] [Neg α] (branch : Branch α) (features : Tensor α) :
    Except Fault (Tensor α) := do
  let pair ← features.split
  let entered ← runInverse branch.blocks.reverse pair
  (Psi.mk branch.initialBlock).inverse (← entered.merge)

/-- The merged values after each step of a walk. -/
def walk (steps : List (Pair α → Except Fault (Pair α))) (pair : Pair α) :
    Except Fault (List (Tensor α)) :=
  match steps with
  | [] => .ok []
  | step :: rest => do
      let next ← step pair
      let merged ← next.merge
      return merged :: (← walk rest next)

/-- The merged input of every block, and then the features. -/
def forwardTrace [Add α] (branch : Branch α) (x : Tensor α) :
    Except Fault (List (Tensor α)) := do
  let entered ← branch.enter x
  let pair ← entered.splitAt (branch.inChannels / 2)
  return entered :: (← walk (branch.blocks.map (·.forward)) pair)

/-- `forwardTrace` as far as memory goes. -/
def forwardTraceInMemory [Add α] (branch : Branch α) (x : Tensor α) :
    Except Fault (List (Tensor α)) := do
  let entered ← branch.enter x
  let pair ← entered.splitAt (branch.inChannels / 2)
  return entered :: (← walk (branch.blocks.map (·.forwardInMemory)) pair)

/-- What the inverse finds at the same places, in the same order. -/
def inverseTrace [Add α] [Neg α] (branch : Branch α) (features : Tensor α) :
    Except Fault (List (Tensor α)) := do
  let pair ← features.split
  let behind ← walk (branch.blocks.reverse.map (·.inverse)) pair
  return (features :: behind).reverse

end Branch

end InvertibleNet
