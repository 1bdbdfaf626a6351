/-
# Branches of a plan

The branch of a network as two functions on tensors. What the plan promises about
shapes makes both directions succeed, whatever the residual maps compute as long
as they keep the shapes of their layers. So nothing here is about weights: the
branch may be over any type of values, and over a group it is enough to know the
stack in the middle.
-/

import InvertibleNet.Coupling.Branch
import InvertibleNet.Proofs.Coupling.Stack
import InvertibleNet.Proofs.Network.Consistency

namespace InvertibleNet

universe u

/-- Features have two halves. -/
theorem Plan.Consistent.split_eq {α : Type u} [Zero α] {plan : Plan} (consistent : plan.Consistent)
    {batch : Nat} (some : 0 < batch) {y : Tensor α}
    (features : y.shape = plan.features.batched batch) : y.split = .ok y.cut := by
  have full := consistent.full_features some
  have channels : y.shape.channels = plan.outChannels := by rw [features]; rfl
  exact Tensor.split_eq_cut (Nat.ne_of_gt (features ▸ full.2.1)) (channels ▸ consistent.even)

namespace Branch

/-- Whether a branch has the sizes and the schedule of a plan. Its residual maps
are free but for their shapes. -/
structure Follows {α : Type u} (branch : Branch α) (plan : Plan) : Prop where
  input : branch.input = plan.geometry.input
  initialBlock : branch.initialBlock = plan.geometry.initialBlock
  inChannels : branch.inChannels = plan.inChannels
  specs : branch.blocks.map (·.spec) = plan.specs
  shaped : ∀ block ∈ branch.blocks, block.IsShaped

variable {α : Type u} {branch : Branch α} {plan : Plan} {batch : Nat}

theorem Follows.runs (follows : branch.Follows plan) (consistent : plan.Consistent)
    (some : 0 < batch) : Runs branch.blocks (plan.entered batch) :=
  ⟨follows.specs ▸ consistent.passes batch some, follows.shaped⟩

theorem Follows.output_eq (follows : branch.Follows plan) (consistent : plan.Consistent) :
    output branch.blocks (plan.entered batch) = plan.features.batched batch := by
  rw [output, follows.specs, consistent.output]

/-- The rearrangement at the entrance. -/
def psi (branch : Branch α) : Psi := ⟨branch.initialBlock⟩

theorem Follows.psi_eq (follows : branch.Follows plan) :
    branch.psi = ⟨plan.geometry.initialBlock⟩ :=
  congrArg Psi.mk follows.initialBlock

theorem Follows.block_pos (follows : branch.Follows plan) (consistent : plan.Consistent) :
    0 < branch.psi.block := by
  rw [follows.psi_eq]
  exact consistent.block_pos

theorem Follows.divides (follows : branch.Follows plan) (consistent : plan.Consistent)
    {x : Tensor α} (samples : x.shape = plan.geometry.input.batched batch) :
    branch.psi.Divides x.shape := by
  rw [samples, follows.psi_eq]
  exact ⟨consistent.block_pos, consistent.height, consistent.width⟩

/-- The branch of a plan whose residual maps repeat the first entry of each sample. -/
def repeating [Zero α] (plan : Plan) : Branch α where
  input := plan.geometry.input
  initialBlock := plan.geometry.initialBlock
  inChannels := plan.inChannels
  blocks := plan.specs.map fun spec => {
    spec
    residual := fun half => Tensor.ofFn (spec.residualShape half.shape) fun sample _ _ _ =>
      half.entry sample 0 0 0 }

theorem follows_repeating [Zero α] (plan : Plan) : (repeating plan : Branch α).Follows plan := by
  refine ⟨rfl, rfl, rfl, ?_, ?_⟩
  · show (plan.specs.map _).map _ = plan.specs
    rw [List.map_map]
    exact List.map_id plan.specs
  · intro block member half _ _
    obtain ⟨spec, -, rfl⟩ := List.mem_map.mp member
    rfl

section Sides

variable [Zero α]

theorem Follows.shape_gather (follows : branch.Follows plan) (consistent : plan.Consistent)
    {x : Tensor α} (samples : x.shape = plan.geometry.input.batched batch) :
    (branch.psi.gather x).shape = plan.entered batch := by
  rw [Psi.shape_gather (follows.block_pos consistent), samples, follows.psi_eq]
  simp only [Psi.gathered, SampleShape.batched, consistent.channels, Plan.entered]

theorem Follows.enter_eq (follows : branch.Follows plan) (consistent : plan.Consistent)
    (some : 0 < batch) {x : Tensor α} (samples : x.shape = plan.geometry.input.batched batch) :
    branch.enter x = .ok (branch.psi.gather x) := by
  have accepts : branch.Accepts x := by
    unfold Accepts
    rw [samples, follows.input]
    exact ⟨rfl, rfl, rfl⟩
  unfold enter
  rw [if_pos accepts]
  exact Psi.forward_eq_gather (samples ▸ consistent.full_samples some)
    (follows.divides consistent samples)

/-- Behind the entrance there are channels for two halves. -/
theorem Follows.splitAt_eq (follows : branch.Follows plan) (consistent : plan.Consistent)
    {x : Tensor α} (samples : x.shape = plan.geometry.input.batched batch) :
    (branch.psi.gather x).splitAt (branch.inChannels / 2) = .ok (branch.psi.gather x).cut := by
  have channels : branch.inChannels = (branch.psi.gather x).shape.channels := by
    rw [follows.shape_gather consistent samples, follows.inChannels]
    rfl
  rw [channels]
  refine Tensor.splitAt_half ?_
  rw [← channels, follows.inChannels]
  exact consistent.pair

variable [Add α]

/-- From an input to its features. -/
def encode (branch : Branch α) (x : Tensor α) : Tensor α :=
  advanceAll branch.blocks (branch.psi.gather x)

/-- From features to an input. -/
def decode [Neg α] (branch : Branch α) (y : Tensor α) : Tensor α :=
  branch.psi.scatter (retreatAll branch.blocks y)

theorem Follows.shape_encode (follows : branch.Follows plan) (consistent : plan.Consistent)
    (some : 0 < batch) {x : Tensor α} (samples : x.shape = plan.geometry.input.batched batch) :
    (branch.encode x).shape = plan.features.batched batch :=
  (shape_advanceAll (follows.runs consistent some) (follows.shape_gather consistent samples)).trans
    (follows.output_eq consistent)

/-- Forward, a branch encodes. -/
theorem Follows.forward_eq (follows : branch.Follows plan) (consistent : plan.Consistent)
    (some : 0 < batch) {x : Tensor α} (samples : x.shape = plan.geometry.input.batched batch) :
    branch.forward x = .ok (branch.encode x) := by
  have entered := follows.shape_gather consistent samples
  have runs := runForward_cut (follows.runs consistent some) entered
  simp only [Branch.forward, bind, Except.bind, follows.enter_eq consistent some samples,
    follows.splitAt_eq consistent samples, runs]
  exact Tensor.merge_cut _

variable [Neg α]

theorem Follows.shape_retreatAll (follows : branch.Follows plan) (consistent : plan.Consistent)
    (some : 0 < batch) {y : Tensor α} (features : y.shape = plan.features.batched batch) :
    (retreatAll branch.blocks y).shape = plan.entered batch :=
  Branch.shape_retreatAll (follows.runs consistent some)
    (features.trans (follows.output_eq consistent).symm)

theorem Follows.area_dvd (follows : branch.Follows plan) (consistent : plan.Consistent)
    (some : 0 < batch) {y : Tensor α} (features : y.shape = plan.features.batched batch) :
    branch.psi.block * branch.psi.block ∣ (retreatAll branch.blocks y).shape.channels := by
  rw [follows.shape_retreatAll consistent some features, follows.psi_eq]
  show plan.geometry.initialBlock * plan.geometry.initialBlock ∣ plan.inChannels
  rw [← consistent.channels]
  exact Nat.dvd_mul_right _ _

theorem Follows.shape_decode (follows : branch.Follows plan) (consistent : plan.Consistent)
    (some : 0 < batch) {y : Tensor α} (features : y.shape = plan.features.batched batch) :
    (branch.decode y).shape = plan.geometry.input.batched batch := by
  have area_pos := Nat.mul_pos consistent.block_pos consistent.block_pos
  rw [decode, Psi.shape_scatter (follows.block_pos consistent),
    follows.shape_retreatAll consistent some features, follows.psi_eq]
  simp only [Psi.spread, Plan.entered, ← consistent.channels,
    Nat.mul_div_cancel_left _ area_pos, Nat.div_mul_cancel consistent.height,
    Nat.div_mul_cancel consistent.width, SampleShape.batched]

/-- The rearrangement at the entrance takes back what the blocks were undone to. -/
theorem Follows.leave_eq (follows : branch.Follows plan) (consistent : plan.Consistent)
    (some : 0 < batch) {y : Tensor α} (features : y.shape = plan.features.batched batch) :
    branch.psi.inverse (retreatAll branch.blocks y) = .ok (branch.decode y) := by
  have entered := follows.shape_retreatAll consistent some features
  refine Psi.inverse_eq_scatter (entered ▸ consistent.full_entered some) ?_
    (follows.area_dvd consistent some features)
  rw [follows.psi_eq]
  exact consistent.area_lt

/-- Back, a branch decodes. -/
theorem Follows.inverse_eq (follows : branch.Follows plan) (consistent : plan.Consistent)
    (some : 0 < batch) {y : Tensor α} (features : y.shape = plan.features.batched batch) :
    branch.inverse y = .ok (branch.decode y) := by
  have runs := runInverse_cut (follows.runs consistent some)
    (features.trans (follows.output_eq consistent).symm)
  simp only [Branch.inverse, bind, Except.bind, consistent.split_eq some features, runs,
    Tensor.merge_cut]
  exact follows.leave_eq consistent some features

end Sides

/-! ## Over a group -/

section Group

variable {β : Type u} [AddGroup β] {stem : Branch β}

theorem Follows.decode_encode (follows : stem.Follows plan) (consistent : plan.Consistent)
    (some : 0 < batch) {x : Tensor β} (samples : x.shape = plan.geometry.input.batched batch) :
    stem.decode (stem.encode x) = x := by
  rw [decode, encode, retreatAll_advanceAll (follows.runs consistent some)
    (follows.shape_gather consistent samples)]
  exact Psi.scatter_gather (follows.divides consistent samples)

theorem Follows.encode_decode_iff (follows : stem.Follows plan) (consistent : plan.Consistent)
    (some : 0 < batch) {y : Tensor β} (features : y.shape = plan.features.batched batch) :
    stem.encode (stem.decode y) = y ↔ DropsZeros stem.blocks.reverse y.cut := by
  rw [encode, decode,
    Psi.gather_scatter (follows.block_pos consistent) (follows.area_dvd consistent some features)]
  exact advanceAll_retreatAll_iff (follows.runs consistent some)
    (features.trans (follows.output_eq consistent).symm)

end Group

end Branch

end InvertibleNet
