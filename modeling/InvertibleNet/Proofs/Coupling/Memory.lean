/-
# Blocks as far as memory goes

A block makes one tensor that is larger than what it is given: the padded one. Where that
tensor can exist, the block does in memory what it does with memory left aside, and where
it cannot, the block breaks off. No block makes a sample smaller. So nothing on the way
through a stack is larger than what comes out behind it, and the whole walk is possible
exactly if there is room for that.
-/

import InvertibleNet.Proofs.Coupling.Selection
import InvertibleNet.Proofs.Coupling.Trace
import InvertibleNet.Proofs.Tensor.Padding
import InvertibleNet.Proofs.Tensor.Room

namespace InvertibleNet

universe u

/-! ## Sizes along a schedule -/

namespace BlockSpec

variable {spec : BlockSpec} {shape : Shape}

theorem Takes.full_padded (takes : spec.Takes shape) : (spec.paddedShape shape).IsFull :=
  ⟨takes.full.1, Nat.add_pos_left (takes.channels ▸ takes.full.2.1) _, takes.full.2.2⟩

/-- What a block gives is as large as what it has padded. -/
theorem Takes.size_output (takes : spec.Takes shape) :
    (spec.output shape).size = (spec.paddedShape shape).size := by
  have padded : (spec.paddedShape shape).sampleSize =
      shape.sampleSize + spec.pad * shape.height * shape.width := by
    simp only [Shape.sampleSize, paddedShape, takes.channels, Nat.add_mul]
  rw [Shape.size_eq, Shape.size_eq, padded, takes.sampleSize_output]
  rfl

/-- The padded tensor can exist exactly if there is room for what the block gives. -/
theorem Takes.isAddressable_padded_iff (takes : spec.Takes shape) :
    (spec.paddedShape shape).isAddressable = true ↔
      4 * (spec.output shape).size < Count.signedLimit := by
  rw [takes.full_padded.isAddressable_iff, takes.size_output]

end BlockSpec

/-- A schedule never makes a batch smaller. -/
theorem Schedule.Passes.size_le {specs : List BlockSpec} {shape : Shape}
    (passes : Passes specs shape) : shape.size ≤ (output specs shape).size := by
  have batch := congrArg Shape.batch
    (output_resize specs shape shape.batch shape.height shape.width)
  rw [Shape.size_eq, Shape.size_eq]
  exact Nat.mul_le_mul (Nat.le_of_eq batch.symm) passes.sampleSize_le

/-! ## One block -/

namespace Coupling

open Outcome

variable {α : Type u} [Zero α] {block : Coupling α} {pair : Pair α} {shape : Shape}

/-- Whether the tensor that a block pads can exist. -/
def HasRoom (block : Coupling α) (pair : Pair α) : Prop :=
  block.spec.pad = 0 ∨
    { pair.1.shape with
      channels := pair.1.shape.channels + pair.2.shape.channels +
        block.spec.pad }.isAddressable = true

/-- Where there is room, growing does not depend on memory. -/
theorem growInMemory_of_room (room : block.HasRoom pair) :
    block.growInMemory pair = block.grow pair := by
  unfold growInMemory grow
  split
  · next pads =>
    have padded := room.resolve_left (Nat.ne_of_gt pads)
    by_cases aligned : pair.1.Aligned pair.2
    · have joins := Pair.merge_eq_ok_iff.mpr ⟨aligned, rfl⟩
      have merges := Tensor.merge_eq_ok_iff.mpr
        ⟨⟨aligned, Shape.isAddressable_of_channels_le (Nat.le_add_right _ _) padded⟩, rfl⟩
      have made : (pair.1.append pair.2).pad block.spec.pad = .ok _ :=
        Tensor.pad_eq_ok_iff.mpr ⟨.inr padded, rfl⟩
      simp only [joins, merges, made, bind, Except.bind]
    · have refused : pair.1.mergeChannels pair.2 = .error _ := if_neg aligned
      simp only [Tensor.merge, Pair.merge, refused, bind, Except.bind]
  · rfl

/-- Where there is none, growing breaks off. -/
theorem growInMemory_of_crowded (aligned : pair.1.Aligned pair.2)
    (crowded : ¬ block.HasRoom pair) :
    block.growInMemory pair = .error (.breakdown .overflow) := by
  have pads : 0 < block.spec.pad := Nat.pos_of_ne_zero fun none => crowded (.inl none)
  rw [growInMemory, if_pos pads]
  by_cases fits : (pair.1.append pair.2).shape.isAddressable = true
  · have merges := Tensor.merge_eq_ok_iff.mpr ⟨⟨aligned, fits⟩, rfl⟩
    have refused : (pair.1.append pair.2).pad block.spec.pad = .error (.breakdown .overflow) :=
      if_neg crowded
    simp only [merges, refused, bind, Except.bind]
  · simp only [Tensor.merge_of_crowded aligned fits, bind, Except.bind]

variable [Add α]

theorem forwardInMemory_of_room (room : block.HasRoom pair) :
    block.forwardInMemory pair = block.forward pair := by
  rw [forwardInMemory, forward, growInMemory_of_room room]

theorem forwardInMemory_of_crowded (aligned : pair.1.Aligned pair.2)
    (channels : pair.1.shape.channels + pair.2.shape.channels = block.spec.inChannels)
    (crowded : ¬ block.HasRoom pair) :
    block.forwardInMemory pair = .error (.breakdown .overflow) := by
  simp only [forwardInMemory, channels, growInMemory_of_crowded aligned crowded, ne_eq,
    not_true_eq_false, if_false, bind, Except.bind]

/-- From a tensor that can exist a block gets as far as there is room for what it gives. -/
theorem forwardInMemory_cut (takes : block.spec.Takes shape) {x : Tensor α}
    (input : x.shape = shape) (room : 4 * shape.size < Count.signedLimit) :
    block.forwardInMemory x.cut =
      if 4 * (block.spec.output shape).size < Count.signedLimit then block.forward x.cut
      else .error (.breakdown .overflow) := by
  have channels : x.cut.1.shape.channels + x.cut.2.shape.channels = block.spec.inChannels := by
    rw [x.channels_cut, input, takes.channels]
  have padded : { x.cut.1.shape with
      channels := x.cut.1.shape.channels + x.cut.2.shape.channels + block.spec.pad } =
        block.spec.paddedShape shape := by
    rw [channels, ← input]
    rfl
  have needs : block.HasRoom x.cut ↔
      block.spec.pad = 0 ∨ 4 * (block.spec.output shape).size < Count.signedLimit := by
    rw [HasRoom, padded, takes.isAddressable_padded_iff]
  split
  · next fits => exact forwardInMemory_of_room (needs.mpr (.inr fits))
  · next crowded =>
    refine forwardInMemory_of_crowded ⟨rfl, rfl, rfl⟩ channels fun fits => ?_
    rcases needs.mp fits with none | fits
    · -- A block that pads nothing gives as much as it was given.
      have same : (block.spec.output shape).size = shape.size := by
        rw [takes.size_output, BlockSpec.paddedShape, none, Nat.add_zero, ← takes.channels]
      rw [same] at crowded
      exact crowded room
    · exact crowded fits

end Coupling

/-! ## A whole stack -/

namespace Branch

variable {α : Type u} [Zero α] [Add α]

/-- A walk through blocks gets through exactly if there is room for what they give. -/
theorem walk_forwardInMemory_cut {blocks : List (Coupling α)} {shape : Shape}
    (runs : Runs blocks shape) {x : Tensor α} (input : x.shape = shape)
    (room : 4 * shape.size < Count.signedLimit) :
    walk (blocks.map (·.forwardInMemory)) x.cut =
      if 4 * (output blocks shape).size < Count.signedLimit then
        walk (blocks.map (·.forward)) x.cut
      else .error (.breakdown .overflow) := by
  induction blocks generalizing shape x with
  | nil => exact (if_pos room).symm
  | cons block blocks ih =>
      obtain ⟨takes, shaped⟩ := runs.head
      have steps := Coupling.forward_cut takes shaped input
      have here := Coupling.forwardInMemory_cut takes input room
      by_cases fits : 4 * (block.spec.output shape).size < Count.signedLimit
      · have behind := ih runs.tail (Coupling.shape_advance takes shaped input) fits
        have walked : output (block :: blocks) shape = output blocks (block.spec.output shape) :=
          rfl
        rw [if_pos fits, steps] at here
        rw [walked, List.map_cons, walk_cons_cut here, behind, List.map_cons, walk_cons_cut steps]
        split
        · rfl
        · rfl
      · -- What is too large here is no smaller behind the last block.
        have grown : (block.spec.output shape).size ≤ (output (block :: blocks) shape).size :=
          runs.tail.passes.size_le
        rw [if_neg fits] at here
        rw [if_neg (by omega)]
        simp only [List.map_cons, walk, bind, Except.bind, here]

end Branch

end InvertibleNet
