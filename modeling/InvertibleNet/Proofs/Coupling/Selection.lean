/-
# Runs treat every sample alone

A coupling block whose residual map commutes with selections of samples commutes
with them itself, and so does every stack of such blocks. Forward this is said of
the merged tensor. Backward it is said of the run, because there it is also asked
of a selection without samples: a run back gets through on an empty batch wherever
one sample of the features would have room, since no block on the way needs more.
-/

import InvertibleNet.Proofs.Coupling.Stack
import InvertibleNet.Proofs.Schedule.Volume
import InvertibleNet.Proofs.Tensor.Selection

namespace InvertibleNet

universe u

open Outcome

/-! ## Room -/

/-- A schedule never makes a sample smaller. -/
theorem Schedule.Passes.sampleSize_le {specs : List BlockSpec} {shape : Shape}
    (passes : Passes specs shape) : shape.sampleSize ≤ (output specs shape).sampleSize := by
  rw [passes.sampleSize_output]
  exact Nat.le_add_right _ _

/-- A half of the output is no larger than the output. -/
theorem BlockSpec.sampleSize_movedShape_le (spec : BlockSpec) (shape : Shape) :
    (spec.movedShape shape).sampleSize ≤ (spec.output shape).sampleSize :=
  Nat.mul_le_mul_right _ (Nat.mul_le_mul_right _ (Nat.le_mul_of_pos_left _ Nat.two_pos))

namespace Coupling

variable {α : Type u} [Zero α] {block : Coupling α} {shape : Shape} {batch : Nat}
  {selection : Selection batch}

/-- Whether the residual map treats every sample alone. -/
def IsSamplewise (block : Coupling α) : Prop :=
  ∀ (half : Tensor α) (selection : Selection half.shape.batch),
    (block.residual half).select selection = block.residual (half.select selection)

theorem IsSamplewise.select (samplewise : block.IsSamplewise) {half : Tensor α}
    (samples : half.shape.batch = batch) :
    (block.residual half).select selection = block.residual (half.select selection) := by
  subst samples
  exact samplewise half selection

variable [Add α]

theorem select_coupled (takes : block.spec.Takes shape) (shaped : block.IsShaped)
    (samplewise : block.IsSamplewise) (samples : shape.batch = batch) {x : Tensor α}
    (padded : x.shape = block.spec.paddedShape shape) :
    (block.coupled x).select selection = block.coupled (x.select selection) := by
  obtain ⟨first_shape, second_shape⟩ := shape_cut_padded takes padded
  have first_samples : x.cut.1.shape.batch = batch := first_shape ▸ samples
  have second_samples : x.cut.2.shape.batch = batch := second_shape ▸ samples
  have first_moved := shape_gather_half takes first_shape
  have second_moved := shape_gather_half takes second_shape
  have updated := shape_residual shaped takes second_shape
  have halves : (x.select selection).cut = (x.cut.1.select selection, x.cut.2.select selection) :=
    Tensor.cut_select first_samples
  have first : (block.psi.gather x.cut.1).select selection =
      block.psi.gather (x.cut.1.select selection) :=
    Psi.select_gather first_samples (first_shape ▸ takes.divides_half)
  have second : (block.psi.gather x.cut.2).select selection =
      block.psi.gather (x.cut.2.select selection) :=
    Psi.select_gather second_samples (second_shape ▸ takes.divides_half)
  have moved_samples : (block.psi.gather x.cut.2).shape.batch = batch := second_moved ▸ samples
  have update_samples : (block.residual x.cut.2).shape.batch = batch := updated ▸ samples
  simp only [coupled]
  rw [Tensor.select_append moved_samples,
    Tensor.select_add update_samples (updated.trans first_moved.symm),
    samplewise.select second_samples, first, second, halves]

theorem select_advance (takes : block.spec.Takes shape) (shaped : block.IsShaped)
    (samplewise : block.IsSamplewise) (samples : shape.batch = batch) {x : Tensor α}
    (input : x.shape = shape) :
    (block.advance x).select selection = block.advance (x.select selection) := by
  have here : x.shape.batch = batch := input ▸ samples
  rw [advance, select_coupled takes shaped samplewise samples (shape_padChannels_takes takes input),
    Tensor.select_padChannels here]
  rfl

variable [Neg α]

/-- Uncoupling commutes with every selection, also with that of no sample. -/
theorem uncouple_select (takes : block.spec.Takes shape) (shaped : block.IsShaped)
    (samplewise : block.IsSamplewise) (samples : shape.batch = batch)
    (room : selection.count = 0 → (block.spec.output shape).sampleSize < Count.signedLimit)
    {y : Tensor α} (output : y.shape = block.spec.output shape) :
    block.uncouple (y.select selection).cut =
      .ok ((block.uncoupled y).select selection).cut := by
  obtain ⟨first_shape, second_shape⟩ := shape_cut_output output
  have first_samples : y.cut.1.shape.batch = batch := first_shape ▸ samples
  have second_samples : y.cut.2.shape.batch = batch := second_shape ▸ samples
  have stride_pos : 0 < block.psi.block := takes.sound.stride_pos
  have area_lt : block.psi.block * block.psi.block < Count.limit := takes.sound.area_lt
  have moves_back {moved : Tensor α} (moved_shape : moved.shape = block.spec.movedShape shape) :
      block.psi.inverse (moved.select selection) =
        .ok ((block.psi.scatter moved).select selection) := by
    refine Psi.inverse_select (moved_shape ▸ takes.full_moved) stride_pos area_lt
      (moved_shape ▸ takes.sound.area_dvd) (moved_shape ▸ samples) fun none => ?_
    rw [moved_shape]
    exact Nat.lt_of_le_of_lt (block.spec.sampleSize_movedShape_le shape) (room none)
  have second := shape_scatter_moved takes first_shape
  have updated := shape_residual shaped takes second
  have second_here : (block.psi.scatter y.cut.1).shape.batch = batch := second ▸ samples
  have update_samples : (block.residual (block.psi.scatter y.cut.1)).shape.batch = batch :=
    updated ▸ samples
  have channels : ((block.psi.scatter y.cut.1).select selection).shape.channels =
      block.spec.halfChannels := by
    rw [Tensor.shape_select, second]
    rfl
  have updates : block.update ((block.psi.scatter y.cut.1).select selection) =
      .ok ((block.residual (block.psi.scatter y.cut.1)).select selection) := by
    have pixels : ((block.psi.scatter y.cut.1).select selection).shape.hasPixels = true := by
      rw [Tensor.shape_select, second]
      exact takes.full_half.hasPixels
    rw [update, if_pos pixels, samplewise.select second_here]
  have shapes : ((block.residual (block.psi.scatter y.cut.1)).select selection).shape =
      (y.cut.2.select selection).shape := by
    rw [Tensor.shape_select, Tensor.shape_select, updated, second_shape]
  have sum : -(block.residual (block.psi.scatter y.cut.1)).select selection +
        y.cut.2.select selection =
      (-block.residual (block.psi.scatter y.cut.1) + y.cut.2).select selection := by
    have neg_shape : (-block.residual (block.psi.scatter y.cut.1)).shape = y.cut.2.shape :=
      updated.trans second_shape.symm
    have neg_samples : (-block.residual (block.psi.scatter y.cut.1)).shape.batch = batch :=
      update_samples
    rw [Tensor.select_add neg_samples neg_shape, Tensor.select_neg update_samples]
  have sum_shape : (-block.residual (block.psi.scatter y.cut.1) + y.cut.2).shape =
      block.spec.movedShape shape := updated
  have restored_samples : (block.uncoupled y).shape.batch = batch :=
    shape_uncoupled takes shaped output ▸ samples
  rw [Tensor.cut_select (output ▸ samples), Tensor.cut_select restored_samples,
    cut_uncoupled takes shaped output]
  simp only [uncouple, bind, Except.bind, pure, Except.pure, moves_back first_shape, channels,
    updates, Tensor.shape_neg, shapes, sum, moves_back sum_shape, ne_eq, not_true_eq_false,
    if_false]

/-- A step back commutes with every selection, also with that of no sample. -/
theorem inverse_select (takes : block.spec.Takes shape) (shaped : block.IsShaped)
    (samplewise : block.IsSamplewise) (samples : shape.batch = batch)
    (room : selection.count = 0 → (block.spec.output shape).sampleSize < Count.signedLimit)
    {y : Tensor α} (output : y.shape = block.spec.output shape) :
    block.inverse (y.select selection).cut = .ok ((block.retreat y).select selection).cut := by
  have padded := shape_uncoupled takes shaped output
  have padded_samples : (block.uncoupled y).shape.batch = batch := padded ▸ samples
  have channels : ((block.uncoupled y).select selection).shape.channels =
      block.spec.inChannels + block.spec.pad := by
    rw [Tensor.shape_select, padded]
    rfl
  rw [retreat, Tensor.select_channelRange padded_samples, inverse,
    uncouple_select takes shaped samplewise samples room output]
  exact shrink_cut takes.sound channels

/-! ## Back from any tensor -/

/-- What a step back gets through on has the width that the block puts out, and pixels. -/
theorem channels_of_inverse (sound : block.spec.Sound) {pair next : Pair α}
    (some : 0 < pair.1.shape.channels) (steps : block.inverse pair = .ok next) :
    pair.1.shape.channels = block.spec.outChannels ∧ pair.1.shape.hasPixels = true := by
  obtain ⟨second, moves, half, reached, -⟩ := exists_of_inverse steps
  have stride_pos : 0 < block.psi.block := sound.stride_pos
  obtain ⟨divides, pixels, shape⟩ :=
    Psi.shape_inverse stride_pos sound.area_lt some moves reached
  refine ⟨?_, pixels⟩
  have kept : pair.1.shape.channels / (block.psi.block * block.psi.block) =
      block.spec.halfChannels := by
    rw [← half, shape]
    rfl
  rw [← sound.area, ← kept]
  exact (Nat.mul_div_cancel' divides).symm

end Coupling

namespace Branch

variable {α : Type u} [Zero α] [Add α] {blocks : List (Coupling α)} {shape : Shape} {batch : Nat}
  {selection : Selection batch}

theorem select_advanceAll (runs : Runs blocks shape)
    (samplewise : ∀ block ∈ blocks, block.IsSamplewise) (samples : shape.batch = batch)
    {x : Tensor α} (input : x.shape = shape) :
    (advanceAll blocks x).select selection = advanceAll blocks (x.select selection) := by
  induction blocks generalizing shape x with
  | nil => rfl
  | cons block blocks ih =>
      obtain ⟨takes, shaped⟩ := runs.head
      obtain ⟨here, rest⟩ := List.forall_mem_cons.mp samplewise
      show (advanceAll blocks (block.advance x)).select selection =
        advanceAll blocks (block.advance (x.select selection))
      rw [ih runs.tail rest samples (Coupling.shape_advance takes shaped input),
        Coupling.select_advance takes shaped here samples input]

variable [Neg α]

/-- A run back commutes with every selection, also with that of no sample. -/
theorem runInverse_select (runs : Runs blocks shape)
    (samplewise : ∀ block ∈ blocks, block.IsSamplewise) (samples : shape.batch = batch)
    {y : Tensor α} (features : y.shape = output blocks shape)
    (room : selection.count = 0 → y.shape.sampleSize < Count.signedLimit) :
    runInverse blocks.reverse (y.select selection).cut =
      .ok ((retreatAll blocks y).select selection).cut := by
  induction blocks generalizing shape with
  | nil => rfl
  | cons block blocks ih =>
      obtain ⟨takes, shaped⟩ := runs.head
      obtain ⟨here, rest⟩ := List.forall_mem_cons.mp samplewise
      have reached := shape_retreatAll runs.tail features
      have last : runInverse [block] ((retreatAll blocks y).select selection).cut =
          .ok ((retreatAll (block :: blocks) y).select selection).cut := by
        show (block.inverse ((retreatAll blocks y).select selection).cut >>= pure) = _
        rw [Coupling.inverse_select takes shaped here samples ?_ reached]
        · rfl
        · intro none
          have room := room none
          rw [features] at room
          exact Nat.lt_of_le_of_lt runs.tail.passes.sampleSize_le room
      rw [List.reverse_cons, runInverse_append, ih runs.tail rest samples features]
      exact last

end Branch

end InvertibleNet
