/-
# Networks as far as memory goes

The rearrangement at the entrance keeps every value of a batch and the blocks only add zeros,
so the features are the largest tensor of a run. The trace of a batch that can exist is
possible in memory exactly if its features can exist too.
-/

import InvertibleNet.Proofs.Coupling.Memory
import InvertibleNet.Proofs.Network.Trace

namespace InvertibleNet

universe u

namespace Plan

variable {plan : Plan}

/-- A batch is as large behind the entrance as in front of it. -/
theorem Consistent.size_entered (consistent : plan.Consistent) (batch : Nat) :
    (plan.entered batch).size = (plan.geometry.input.batched batch).size := by
  have entered : plan.entered batch = (Psi.mk plan.geometry.initialBlock).gathered
      (plan.geometry.input.batched batch) := by
    simp only [Plan.entered, Psi.gathered, SampleShape.batched, consistent.channels]
  have divides : (Psi.mk plan.geometry.initialBlock).Divides (plan.geometry.input.batched batch) :=
    ⟨consistent.block_pos, consistent.height, consistent.width⟩
  rw [Shape.size_eq, Shape.size_eq, entered, divides.sampleSize_gathered]
  rfl

/-- The features of a batch are no smaller than the batch. -/
theorem Consistent.size_samples_le (consistent : plan.Consistent) {batch : Nat} (some : 0 < batch) :
    (plan.geometry.input.batched batch).size ≤ (plan.features.batched batch).size := by
  rw [← consistent.size_entered, ← consistent.output]
  exact (consistent.passes batch some).size_le

/-- More samples have larger features. -/
theorem size_features_le (plan : Plan) {fewer more : Nat} (ordered : fewer ≤ more) :
    (plan.features.batched fewer).size ≤ (plan.features.batched more).size :=
  Nat.mul_le_mul_right _ (Nat.mul_le_mul_right _ (Nat.mul_le_mul_right _ ordered))

end Plan

namespace Branch

variable {α : Type u} [Zero α] [Add α] {branch : Branch α} {plan : Plan} {batch : Nat}

/-- The trace of a batch that can exist is the same in memory if there is room for the
features, and breaks off if there is none. -/
theorem Follows.forwardTraceInMemory_eq (follows : branch.Follows plan)
    (consistent : plan.Consistent) (some : 0 < batch) {x : Tensor α}
    (samples : x.shape = plan.geometry.input.batched batch)
    (room : 4 * x.shape.size < Count.signedLimit) :
    branch.forwardTraceInMemory x =
      if 4 * (plan.features.batched batch).size < Count.signedLimit then branch.forwardTrace x
      else .error (.breakdown .overflow) := by
  have entered := follows.shape_gather consistent samples
  rw [samples, ← consistent.size_entered] at room
  have walks := walk_forwardInMemory_cut (follows.runs consistent some) entered room
  rw [follows.output_eq consistent] at walks
  split at walks
  · next fits =>
    simp only [forwardTraceInMemory, forwardTrace, bind, Except.bind, if_pos fits,
      follows.enter_eq consistent some samples, follows.splitAt_eq consistent samples, walks]
  · next crowded =>
    simp only [forwardTraceInMemory, bind, Except.bind, if_neg crowded,
      follows.enter_eq consistent some samples, follows.splitAt_eq consistent samples, walks]

end Branch

end InvertibleNet
