/-
# Splitting, merging and padding channels

What flows through a network is one tensor seen as a pair: its channels are cut
into two groups. This module cuts and joins along the channel axis, and appends
the zero channels that let a block grow.

Joining and padding make a tensor that is larger than what they are given, and
it may be too large for any array. `merge` and `pad` break off then.
`mergeChannels` and `padChannels` are the same operations with memory left
aside.
-/

import InvertibleNet.Fault
import InvertibleNet.Tensor.Basic

namespace InvertibleNet

universe u

variable {α : Type u}

/-- The running value between blocks. -/
abbrev Pair (α : Type u) := Tensor α × Tensor α

namespace Tensor

variable [Zero α]

/-- The channels from `start` on, `count` of them. -/
def channelRange (x : Tensor α) (start count : Nat) : Tensor α :=
  ofFn { x.shape with channels := count } fun sample channel row column =>
    x.entry sample (start + channel) row column

/-- Cut the channels in front of the given one. Both parts have to be
non-empty. -/
def splitAt (x : Tensor α) (point : Nat) : Except Fault (Pair α) :=
  if point = 0 ∨ x.shape.channels ≤ point then
    .error (.shape (.splitPoint x.shape.channels point))
  else
    .ok (x.channelRange 0 point, x.channelRange point (x.shape.channels - point))

/-- Cut the channels in the middle. -/
def split (x : Tensor α) : Except Fault (Pair α) :=
  if x.shape.channels = 0 ∨ x.shape.channels % 2 ≠ 0 then
    .error (.shape (.oddSplit x.shape.channels))
  else x.splitAt (x.shape.channels / 2)

/-- The channels of the first tensor followed by those of the second, which is
taken to agree with it on the other axes. -/
def append (x y : Tensor α) : Tensor α :=
  ofFn { x.shape with channels := x.shape.channels + y.shape.channels }
    fun sample channel row column =>
      if channel < x.shape.channels then x.entry sample channel row column
      else y.entry sample (channel - x.shape.channels) row column

/-- Join two tensors along their channels. -/
def mergeChannels (x y : Tensor α) : Except Fault (Tensor α) :=
  if x.shape.batch = y.shape.batch ∧ x.shape.height = y.shape.height ∧
      x.shape.width = y.shape.width then
    .ok (x.append y)
  else .error (.shape (.mergeMismatch x.shape y.shape))

/-- Join two tensors along their channels, if the result can exist. -/
def merge (x y : Tensor α) : Except Fault (Tensor α) := do
  let merged ← x.mergeChannels y
  if merged.shape.isAddressable then return merged else throw (.breakdown .overflow)

/-- Append zero channels. -/
def padChannels (x : Tensor α) (pad : Nat) : Tensor α :=
  if pad = 0 then x
  else x.append (ofFn { x.shape with channels := pad } fun _ _ _ _ => 0)

/-- Append zero channels, if the result can exist. -/
def pad (x : Tensor α) (pad : Nat) : Except Fault (Tensor α) :=
  if pad = 0 ∨ { x.shape with channels := x.shape.channels + pad }.isAddressable then
    .ok (x.padChannels pad)
  else .error (.breakdown .overflow)

/-- Drop the channels that padding appended. At least one has to be left. -/
def unpadChannels (x : Tensor α) (pad : Nat) : Except Fault (Tensor α) :=
  if pad = 0 then .ok x
  else if x.shape.channels ≤ pad then .error (.shape (.nothingLeft pad x.shape.channels))
  else .ok (x.channelRange 0 (x.shape.channels - pad))

end Tensor

/-- Join the halves of a pair, memory aside. -/
def Pair.merge [Zero α] (pair : Pair α) : Except Fault (Tensor α) := pair.1.mergeChannels pair.2

end InvertibleNet
