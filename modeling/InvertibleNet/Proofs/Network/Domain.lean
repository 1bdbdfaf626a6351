/-
# Where a branch can be undone

The way back knows the channels of the features but not their size: whatever
height and width they have, they could be the features of larger or smaller
samples. So a plan is moved to the samples that features of the given size would
come from. It has the same blocks and stays consistent, and the way back of a
branch is the same for both plans. Features with any other number of channels do
not get past the last block.
-/

import InvertibleNet.Proofs.Coupling.Trace
import InvertibleNet.Proofs.Network.Run

namespace InvertibleNet

universe u

/-- The tensor of one value everywhere. -/
def Tensor.constant {α : Type u} (shape : Shape) (value : α) : Tensor α :=
  ofFn shape fun _ _ _ _ => value

namespace Plan

variable {plan : Plan} {height width : Nat}

/-- The factor between features and samples. -/
def stride (plan : Plan) : Nat := plan.geometry.initialBlock * Schedule.shrinkage plan.specs

/-- The plan of the same blocks whose features have the given height and width. -/
def resized (plan : Plan) (height width : Nat) : Plan :=
  { plan with
    geometry := { plan.geometry with
      input := ⟨plan.geometry.input.channels, height * plan.stride, width * plan.stride⟩ }
    pooled := (height, width) }

theorem Consistent.stride_pos (consistent : plan.Consistent) : 0 < plan.stride :=
  Nat.mul_pos consistent.block_pos
    (Schedule.shrinkage_pos (consistent.passes 1 Nat.one_pos).sound)

theorem Consistent.entered_resized (consistent : plan.Consistent) (batch height width : Nat) :
    (plan.resized height width).entered batch =
      ⟨batch, plan.inChannels, height * Schedule.shrinkage plan.specs,
        width * Schedule.shrinkage plan.specs⟩ := by
  have through (extent : Nat) : extent * plan.stride / plan.geometry.initialBlock =
      extent * Schedule.shrinkage plan.specs := by
    rw [stride, Nat.mul_left_comm, Nat.mul_div_cancel_left _ consistent.block_pos]
  simp only [entered, resized, through]

/-- A consistent plan is one for every size of its features. -/
theorem Consistent.resized (consistent : plan.Consistent) (height_pos : 0 < height)
    (width_pos : 0 < width) : (plan.resized height width).Consistent := by
  have passes := consistent.passes 1 Nat.one_pos
  have shrinkage_pos := Schedule.shrinkage_pos passes.sound
  have outChannels : (Schedule.output plan.specs (plan.entered 1)).channels = plan.outChannels := by
    rw [consistent.output]
    rfl
  exact {
    block_pos := consistent.block_pos
    area_lt := consistent.area_lt
    input := ⟨Nat.one_pos, consistent.input.2.1, Nat.mul_pos height_pos consistent.stride_pos,
      Nat.mul_pos width_pos consistent.stride_pos⟩
    height := Nat.dvd_mul_left_of_dvd (Nat.dvd_mul_right _ _) _
    width := Nat.dvd_mul_left_of_dvd (Nat.dvd_mul_right _ _) _
    channels := consistent.channels
    pair := consistent.pair
    passes := by
      intro batch some
      rw [consistent.entered_resized]
      exact passes.resize some (Nat.mul_pos height_pos shrinkage_pos)
        (Nat.mul_pos width_pos shrinkage_pos) (Nat.dvd_mul_left _ _) (Nat.dvd_mul_left _ _)
    output := by
      intro batch
      rw [consistent.entered_resized]
      refine (Schedule.output_resize plan.specs (plan.entered 1) _ _ _).trans ?_
      rw [outChannels, Nat.mul_div_cancel _ shrinkage_pos, Nat.mul_div_cancel _ shrinkage_pos]
      rfl
    even := consistent.even }

/-- Full tensors with the channels of the features are features of some size. -/
theorem features_resized {shape : Shape} (channels : shape.channels = plan.outChannels) :
    shape = (plan.resized shape.height shape.width).features.batched shape.batch := by
  cases shape
  cases channels
  rfl

/-- Samples hold no more values than their features. -/
theorem Consistent.area_le (consistent : plan.Consistent) :
    plan.stride * plan.stride * plan.geometry.input.channels ≤ plan.outChannels := by
  have gathered := (consistent.passes 1 Nat.one_pos).channels_le
  rw [consistent.output] at gathered
  refine Nat.le_trans (Nat.le_of_eq ?_) gathered
  show _ = _ * plan.inChannels
  rw [stride, ← consistent.channels]
  ac_rfl

/-- The channels of the features are those that the last block puts out. -/
theorem Consistent.outChannels_eq (consistent : plan.Consistent) {last : BlockSpec}
    (ends : plan.specs.getLast? = some last) : plan.outChannels = 2 * last.outChannels := by
  have behind := consistent.output 1
  rw [Schedule.output_eq ends] at behind
  exact (congrArg Shape.channels behind).symm

end Plan

namespace Branch

variable {α : Type u} {branch : Branch α} {plan : Plan} {y : Tensor α}

/-- The branch of the same blocks for another input. -/
def withInput (branch : Branch α) (input : SampleShape) : Branch α := { branch with input }

theorem Follows.resized (follows : branch.Follows plan) (height width : Nat) :
    (branch.withInput (plan.resized height width).geometry.input).Follows
      (plan.resized height width) :=
  ⟨rfl, follows.initialBlock, follows.inChannels, follows.specs, follows.shaped⟩

/-- Every full tensor with the channels of the features is one that the blocks give. -/
theorem Follows.runs_full (follows : branch.Follows plan) (consistent : plan.Consistent)
    (full : y.shape.IsFull) (channels : y.shape.channels = plan.outChannels) :
    ∃ shape, Runs branch.blocks shape ∧ y.shape = output branch.blocks shape := by
  have moved := follows.resized y.shape.height y.shape.width
  have again := consistent.resized full.2.2.1 full.2.2.2
  exact ⟨_, moved.runs again full.1,
    (Plan.features_resized channels).trans (moved.output_eq again).symm⟩

variable [Zero α] [Add α] [Neg α]

/-- A branch decodes every full tensor with the channels of its features. -/
theorem Follows.inverse_decode (follows : branch.Follows plan) (consistent : plan.Consistent)
    (full : y.shape.IsFull) (channels : y.shape.channels = plan.outChannels) :
    branch.inverse y = .ok (branch.decode y) :=
  (follows.resized y.shape.height y.shape.width).inverse_eq
    (consistent.resized full.2.2.1 full.2.2.2) full.1 (Plan.features_resized channels)

theorem Follows.leave_decode (follows : branch.Follows plan) (consistent : plan.Consistent)
    (full : y.shape.IsFull) (channels : y.shape.channels = plan.outChannels) :
    branch.psi.inverse (retreatAll branch.blocks y) = .ok (branch.decode y) :=
  (follows.resized y.shape.height y.shape.width).leave_eq
    (consistent.resized full.2.2.1 full.2.2.2) full.1 (Plan.features_resized channels)

theorem Follows.shape_decode_full (follows : branch.Follows plan) (consistent : plan.Consistent)
    (full : y.shape.IsFull) (channels : y.shape.channels = plan.outChannels) :
    (branch.decode y).shape =
      ⟨y.shape.batch, plan.geometry.input.channels, y.shape.height * plan.stride,
        y.shape.width * plan.stride⟩ :=
  (follows.resized y.shape.height y.shape.width).shape_decode
    (consistent.resized full.2.2.1 full.2.2.2) full.1 (Plan.features_resized channels)

/-- Going back never needs more room than the features take. -/
theorem Follows.size_decode_le (follows : branch.Follows plan) (consistent : plan.Consistent)
    (full : y.shape.IsFull) (channels : y.shape.channels = plan.outChannels) :
    (branch.decode y).shape.size ≤ y.shape.size := by
  rw [follows.shape_decode_full consistent full channels]
  calc y.shape.batch * plan.geometry.input.channels * (y.shape.height * plan.stride) *
        (y.shape.width * plan.stride)
      = y.shape.batch * y.shape.height * y.shape.width *
          (plan.stride * plan.stride * plan.geometry.input.channels) := by ac_rfl
    _ ≤ y.shape.batch * y.shape.height * y.shape.width * y.shape.channels :=
        Nat.mul_le_mul_left _ (channels ▸ consistent.area_le)
    _ = y.shape.batch * y.shape.channels * y.shape.height * y.shape.width := by ac_rfl

/-- Any other number of channels is refused in front of the last block, or by it,
and a trace is refused for the same reason. -/
theorem Follows.inverse_refuses (follows : branch.Follows plan) (consistent : plan.Consistent)
    {last : BlockSpec} (ends : plan.specs.getLast? = some last) (full : y.shape.IsFull)
    (other : y.shape.channels ≠ plan.outChannels) :
    ∃ cause, branch.inverse y = .error (.shape cause) ∧
      branch.inverseTrace y = .error (.shape cause) := by
  by_cases odd : y.shape.channels = 0 ∨ y.shape.channels % 2 ≠ 0
  · have refused : y.split = .error (.shape (.oddSplit y.shape.channels)) := if_pos odd
    refine ⟨.oddSplit y.shape.channels, ?_, ?_⟩
    · simp only [Branch.inverse, bind, Except.bind, refused]
    · simp only [inverseTrace, bind, Except.bind, refused]
  · have halves : y.split = .ok y.cut := Tensor.split_eq_cut (by omega) (by omega)
    have sound : last.Sound :=
      (consistent.passes 1 Nat.one_pos).sound last (List.mem_of_getLast? ends)
    have width := consistent.outChannels_eq ends
    rw [← follows.specs, List.getLast?_map, Option.map_eq_some_iff] at ends
    obtain ⟨block, ends, rfl⟩ := ends
    have half : y.cut.1.shape.channels = y.shape.channels / 2 := rfl
    have half_full : y.cut.1.shape.IsFull := ⟨full.1, by omega, full.2.2⟩
    obtain ⟨cause, refused⟩ := Coupling.inverse_refuses sound half_full (by omega)
    obtain ⟨run, traced⟩ := runInverse_refuses ends refused
    refine ⟨cause, ?_, ?_⟩
    · simp only [Branch.inverse, bind, Except.bind, halves, run]
    · simp only [inverseTrace, bind, Except.bind, halves, traced]

end Branch

namespace NetworkConfig

variable {config : NetworkConfig} {plan : Plan}

/-- The strides of the blocks and the block at the entrance make up the stride that
the geometry has counted. -/
theorem Builds.stride_eq (builds : config.Builds plan) :
    plan.stride = plan.geometry.cumulativeStride := by
  obtain ⟨⟨plannable, -⟩, rfl⟩ := builds_iff.mp builds
  exact congrArg (config.plannedGeometry.initialBlock * ·) plannable.schedulable.shrinkage

/-- A network can be undone on a full tensor exactly if its channels are those of the
features, whatever its batch, height and width. It leads to samples of the channels
of the input, with no more values than it was given, and every other tensor is
refused for its shape. -/
theorem Builds.inverse_domain (builds : config.Builds plan) {weights : Weights}
    (fits : weights.Fits plan) {y : Tensor Single} (full : y.shape.IsFull) :
    (Network.mk plan weights).isRunnable = true ∧
      ∃ last, plan.specs.getLast? = some last ∧
        ((∃ x, (Network.mk plan weights).branch.inverse y = .ok x) ↔
          y.shape.channels = 2 * last.outChannels) ∧
        (∀ x, (Network.mk plan weights).branch.inverse y = .ok x →
          x.shape = ⟨y.shape.batch, config.input.channels,
              y.shape.height * plan.geometry.cumulativeStride,
              y.shape.width * plan.geometry.cumulativeStride⟩ ∧
            x.shape.size ≤ y.shape.size) ∧
        ∀ fault, (Network.mk plan weights).branch.inverse y = .error fault →
          fault.isShape = true := by
  have consistent := builds.consistent
  have follows := Network.follows_branch fits
  obtain ⟨last, ends, -⟩ := builds.features_eq
  have channels := consistent.outChannels_eq ends
  refine ⟨Network.isRunnable_of_fits fits, last, ends, ?_⟩
  rw [← channels]
  by_cases same : y.shape.channels = plan.outChannels
  · have decodes := follows.inverse_decode consistent full same
    have shape := follows.shape_decode_full consistent full same
    rw [builds.input_eq, builds.stride_eq] at shape
    rw [decodes]
    refine ⟨iff_of_true ⟨_, rfl⟩ same, ?_, ?_⟩
    · intro x restored
      cases restored
      exact ⟨shape, follows.size_decode_le consistent full same⟩
    · intro fault refused
      cases refused
  · obtain ⟨cause, refused, -⟩ := follows.inverse_refuses consistent ends full same
    rw [refused]
    refine ⟨iff_of_false ?_ same, ?_, ?_⟩
    · intro found
      rcases found with ⟨x, restored⟩
      cases restored
    · intro x restored
      cases restored
    · intro fault error
      cases error
      rfl

/-- The network of the small configuration with fresh weights. -/
def smallNetwork : Network := ⟨small.planned, (Weights.draw .fresh small.planned 1).run⟩

theorem fits_smallNetwork : (Weights.draw .fresh small.planned 1).run.Fits small.planned :=
  Weights.fits_draw WeightSource.lawful_fresh small.planned 1

theorem inverse_domain_small :
    small.Builds small.planned ∧
      (∃ x, smallNetwork.branch.inverse (Tensor.constant ⟨2, 16, 3, 1⟩ .one) = .ok x ∧
        x.shape = ⟨2, 3, 6, 2⟩) ∧
        ∃ fault, smallNetwork.branch.inverse (Tensor.constant ⟨1, 6, 2, 2⟩ .one) = .error fault ∧
          fault.isShape = true := by
  have wide : (Tensor.constant ⟨2, 16, 3, 1⟩ Single.one).shape.IsFull := by decide
  have narrow : (Tensor.constant ⟨1, 6, 2, 2⟩ Single.one).shape.IsFull := by decide
  obtain ⟨-, last, ends, succeeds, shape, -⟩ := builds_small.inverse_domain fits_smallNetwork wide
  obtain ⟨-, other, others, refused, -, cause⟩ :=
    builds_small.inverse_domain fits_smallNetwork narrow
  cases ends
  cases others
  refine ⟨builds_small, ?_, ?_⟩
  · obtain ⟨x, restored⟩ := succeeds.mpr rfl
    exact ⟨x, restored, (shape x restored).1⟩
  · cases result : smallNetwork.branch.inverse (Tensor.constant ⟨1, 6, 2, 2⟩ .one) with
    | ok x => exact absurd (refused.mp ⟨x, result⟩) (by decide)
    | error fault => exact ⟨fault, rfl, cause fault result⟩

end NetworkConfig

end InvertibleNet
