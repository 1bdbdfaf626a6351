/-
# One coupling block

A block is a padding followed by a coupling. Where shapes are as its schedule
promises, neither direction can fail, and both are plain functions of the merged
tensor: `advance` pads and couples, `retreat` uncouples and drops. Which of the
two directions gives back what it was given is decided by the padding alone,
because over a group coupling and uncoupling are inverse to each other whatever
the residual map computes.
-/

import InvertibleNet.Coupling.Block
import InvertibleNet.Layer.Kernel
import InvertibleNet.Proofs.Outcome
import InvertibleNet.Proofs.Schedule.Passage
import InvertibleNet.Proofs.Tensor.Rearrangement
import InvertibleNet.Proofs.Tensor.Sum

namespace InvertibleNet

universe u

/-- On an extent that the stride divides, a convolution leaves one output for
every step. -/
theorem convolvedExtent_of_dvd {stride extent : Nat} (stride_pos : 0 < stride)
    (extent_pos : 0 < extent) (divides : stride ∣ extent) :
    convolvedExtent stride extent = extent / stride := by
  obtain ⟨steps, rfl⟩ := divides
  have steps_pos : 0 < steps := Nat.pos_of_mul_pos_left extent_pos
  have below : stride * steps - 1 = stride * (steps - 1) + (stride - 1) := by
    rw [Nat.mul_sub_one]
    have := Nat.le_mul_of_pos_right stride steps_pos
    omega
  rw [convolvedExtent, below, Nat.mul_add_div stride_pos, Nat.div_eq_of_lt (by omega),
    Nat.mul_div_cancel_left _ stride_pos]
  omega

namespace BlockSpec

/-- The shape of one half of the padded input. -/
def halfShape (spec : BlockSpec) (shape : Shape) : Shape :=
  { shape with channels := spec.halfChannels }

/-- The shape of the padded input. -/
def paddedShape (spec : BlockSpec) (shape : Shape) : Shape :=
  { shape with channels := spec.inChannels + spec.pad }

/-- The shape of one half of the output. -/
def movedShape (spec : BlockSpec) (shape : Shape) : Shape :=
  ⟨shape.batch, spec.outChannels, shape.height / spec.stride, shape.width / spec.stride⟩

/-- What three convolutions, the first one at the stride of the block, make of
the shape of a half. -/
def residualShape (spec : BlockSpec) (shape : Shape) : Shape :=
  ⟨shape.batch, spec.outChannels, convolvedExtent spec.stride shape.height,
    convolvedExtent spec.stride shape.width⟩

variable {spec : BlockSpec} {shape : Shape}

theorem Takes.full_half (takes : spec.Takes shape) : (spec.halfShape shape).IsFull :=
  ⟨takes.full.1, takes.sound.halfChannels_pos, takes.full.2.2⟩

theorem Takes.full_moved (takes : spec.Takes shape) : (spec.movedShape shape).IsFull :=
  ⟨takes.full_output.1, takes.sound.outChannels_pos, takes.full_output.2.2⟩

theorem Takes.divides_half (takes : spec.Takes shape) :
    (Psi.mk spec.stride).Divides (spec.halfShape shape) :=
  ⟨takes.sound.stride_pos, takes.height, takes.width⟩

/-- The rearrangement of a half and its residual have one shape. -/
theorem Takes.gathered_half (takes : spec.Takes shape) :
    (Psi.mk spec.stride).gathered (spec.halfShape shape) = spec.movedShape shape := by
  simp only [Psi.gathered, halfShape, movedShape, takes.sound.area]

theorem Takes.residual_half (takes : spec.Takes shape) :
    spec.residualShape (spec.halfShape shape) = spec.movedShape shape := by
  obtain ⟨-, -, height_pos, width_pos⟩ := takes.full
  simp only [residualShape, halfShape, movedShape,
    convolvedExtent_of_dvd takes.sound.stride_pos height_pos takes.height,
    convolvedExtent_of_dvd takes.sound.stride_pos width_pos takes.width]

theorem Takes.spread_moved (takes : spec.Takes shape) :
    (Psi.mk spec.stride).spread (spec.movedShape shape) = spec.halfShape shape := by
  rw [← takes.gathered_half, Psi.spread_gathered takes.divides_half]

theorem Sound.area_dvd (sound : spec.Sound) : spec.stride * spec.stride ∣ spec.outChannels :=
  ⟨spec.halfChannels, sound.area.symm⟩

theorem Sound.area_lt (sound : spec.Sound) : spec.stride * spec.stride < Count.limit := by
  unfold Count.limit
  rcases sound.stride with one | two
  · rw [one]
    decide
  · rw [two]
    decide

end BlockSpec

namespace Coupling

open Outcome

variable {α : Type u} {block : Coupling α} {shape : Shape}

/-- Whether the residual map gives every half a result of the shape that three
convolutions give it. -/
def IsShaped (block : Coupling α) : Prop :=
  ∀ half : Tensor α, half.shape.IsFull → half.shape.channels = block.spec.halfChannels →
    (block.residual half).shape = block.spec.residualShape half.shape

theorem shape_residual (shaped : block.IsShaped) (takes : block.spec.Takes shape) {half : Tensor α}
    (half_shape : half.shape = block.spec.halfShape shape) :
    (block.residual half).shape = block.spec.movedShape shape := by
  have full : half.shape.IsFull := by
    rw [half_shape]
    exact takes.full_half
  have channels : half.shape.channels = block.spec.halfChannels := by rw [half_shape]; rfl
  rw [shaped half full channels, half_shape, takes.residual_half]

theorem update_eq_ok_iff {half updated : Tensor α} :
    block.update half = .ok updated ↔
      half.shape.hasPixels = true ∧ updated = block.residual half := by
  unfold update
  split
  · next pixels => rw [Except.ok.injEq, and_iff_right pixels, eq_comm]
  · next blank => simp [blank]

variable [Zero α]

/-- The coupling of a padded tensor. -/
def coupled [Add α] (block : Coupling α) (x : Tensor α) : Tensor α :=
  (block.psi.gather x.cut.2).append (block.residual x.cut.2 + block.psi.gather x.cut.1)

/-- The padded tensor that a coupling came from. -/
def uncoupled [Add α] [Neg α] (block : Coupling α) (y : Tensor α) : Tensor α :=
  let second := block.psi.scatter y.cut.1
  (block.psi.scatter (-block.residual second + y.cut.2)).append second

/-- One step forward on the merged tensor. -/
def advance [Add α] (block : Coupling α) (x : Tensor α) : Tensor α :=
  block.coupled (x.padChannels block.spec.pad)

/-- One step back on the merged tensor. -/
def retreat [Add α] [Neg α] (block : Coupling α) (y : Tensor α) : Tensor α :=
  (block.uncoupled y).channelRange 0 block.spec.inChannels

/-! ## Shapes -/

theorem shape_cut_padded (takes : block.spec.Takes shape) {x : Tensor α}
    (padded : x.shape = block.spec.paddedShape shape) :
    x.cut.1.shape = block.spec.halfShape shape ∧ x.cut.2.shape = block.spec.halfShape shape := by
  have halves := takes.sound.halves
  simp only [Tensor.cut, Tensor.shape_channelRange, padded, BlockSpec.paddedShape,
    BlockSpec.halfShape, Shape.mk.injEq, true_and, and_true]
  omega

theorem shape_cut_output {y : Tensor α} (output : y.shape = block.spec.output shape) :
    y.cut.1.shape = block.spec.movedShape shape ∧ y.cut.2.shape = block.spec.movedShape shape := by
  simp only [Tensor.cut, Tensor.shape_channelRange, output, BlockSpec.output,
    BlockSpec.movedShape, Shape.mk.injEq, true_and, and_true]
  omega

theorem shape_padChannels_takes (takes : block.spec.Takes shape) {x : Tensor α}
    (input : x.shape = shape) :
    (x.padChannels block.spec.pad).shape = block.spec.paddedShape shape := by
  rw [Tensor.shape_padChannels, input, BlockSpec.paddedShape, takes.channels]

theorem shape_gather_half (takes : block.spec.Takes shape) {half : Tensor α}
    (half_shape : half.shape = block.spec.halfShape shape) :
    (block.psi.gather half).shape = block.spec.movedShape shape := by
  have block_pos : 0 < block.psi.block := takes.sound.stride_pos
  rw [Psi.shape_gather block_pos, half_shape]
  exact takes.gathered_half

theorem shape_scatter_moved (takes : block.spec.Takes shape) {moved : Tensor α}
    (moved_shape : moved.shape = block.spec.movedShape shape) :
    (block.psi.scatter moved).shape = block.spec.halfShape shape := by
  have block_pos : 0 < block.psi.block := takes.sound.stride_pos
  rw [Psi.shape_scatter block_pos, moved_shape]
  exact takes.spread_moved

/-- The halves of a coupling are what the block hands on. -/
theorem cut_coupled [Add α] (takes : block.spec.Takes shape) (shaped : block.IsShaped)
    {x : Tensor α} (padded : x.shape = block.spec.paddedShape shape) :
    (block.coupled x).cut =
      (block.psi.gather x.cut.2, block.residual x.cut.2 + block.psi.gather x.cut.1) := by
  obtain ⟨-, second_shape⟩ := shape_cut_padded takes padded
  have moved := shape_gather_half takes second_shape
  have updated := shape_residual shaped takes second_shape
  apply Tensor.cut_append
  · simp only [Tensor.Aligned, Tensor.shape_add, moved, updated, and_self]
  · simp only [Tensor.shape_add, moved, updated]
    omega

/-- The halves of the padded tensor that a coupling came from. -/
theorem cut_uncoupled [Add α] [Neg α] (takes : block.spec.Takes shape) (shaped : block.IsShaped)
    {y : Tensor α} (output : y.shape = block.spec.output shape) :
    (block.uncoupled y).cut =
      (block.psi.scatter (-block.residual (block.psi.scatter y.cut.1) + y.cut.2),
        block.psi.scatter y.cut.1) := by
  obtain ⟨first_shape, -⟩ := shape_cut_output output
  have second := shape_scatter_moved takes first_shape
  have first : (block.psi.scatter
      (-block.residual (block.psi.scatter y.cut.1) + y.cut.2)).shape =
        block.spec.halfShape shape :=
    shape_scatter_moved takes (shape_residual shaped takes second)
  apply Tensor.cut_append
  · simp only [Tensor.Aligned, first, second, and_self]
  · simp only [first, second]
    omega

theorem shape_coupled [Add α] (takes : block.spec.Takes shape) (shaped : block.IsShaped)
    {x : Tensor α} (padded : x.shape = block.spec.paddedShape shape) :
    (block.coupled x).shape = block.spec.output shape := by
  obtain ⟨-, second_shape⟩ := shape_cut_padded takes padded
  have moved := shape_gather_half takes second_shape
  have updated := shape_residual shaped takes second_shape
  simp only [coupled, Tensor.shape_append, Tensor.shape_add, moved, updated]
  simp only [BlockSpec.movedShape, BlockSpec.output, Nat.two_mul]

theorem shape_uncoupled [Add α] [Neg α] (takes : block.spec.Takes shape)
    (shaped : block.IsShaped) {y : Tensor α} (output : y.shape = block.spec.output shape) :
    (block.uncoupled y).shape = block.spec.paddedShape shape := by
  obtain ⟨first_shape, second_shape⟩ := shape_cut_output output
  have second := shape_scatter_moved takes first_shape
  have updated := shape_residual shaped takes second
  have first : (block.psi.scatter
      (-block.residual (block.psi.scatter y.cut.1) + y.cut.2)).shape =
        block.spec.halfShape shape := shape_scatter_moved takes updated
  simp only [uncoupled, Tensor.shape_append, first, second]
  simp only [BlockSpec.halfShape, BlockSpec.paddedShape, takes.sound.halves, Nat.two_mul]

theorem shape_advance [Add α] (takes : block.spec.Takes shape) (shaped : block.IsShaped)
    {x : Tensor α} (input : x.shape = shape) :
    (block.advance x).shape = block.spec.output shape :=
  shape_coupled takes shaped (shape_padChannels_takes takes input)

theorem shape_retreat [Add α] [Neg α] (takes : block.spec.Takes shape) (shaped : block.IsShaped)
    {y : Tensor α} (output : y.shape = block.spec.output shape) :
    (block.retreat y).shape = shape := by
  rw [retreat, Tensor.shape_channelRange, shape_uncoupled takes shaped output,
    ← takes.channels]
  rfl

/-! ## Neither direction fails -/

theorem grow_cut (takes : block.spec.Takes shape) {x : Tensor α} (input : x.shape = shape) :
    block.grow x.cut = .ok (x.padChannels block.spec.pad).cut := by
  have padded := shape_padChannels_takes takes input
  unfold grow
  split
  · have channels : (x.padChannels block.spec.pad).shape.channels = 2 * block.spec.halfChannels := by
      rw [padded]
      exact takes.sound.halves
    have half_pos := takes.sound.halfChannels_pos
    have halved : (x.padChannels block.spec.pad).split = .ok (x.padChannels block.spec.pad).cut :=
      Tensor.split_eq_cut (by omega) (by omega)
    rw [Tensor.merge_cut]
    exact halved
  · next unpadded =>
    rw [Nat.eq_zero_of_not_pos unpadded, Tensor.padChannels_zero]

theorem shrink_cut (sound : block.spec.Sound) {x : Tensor α}
    (channels : x.shape.channels = block.spec.inChannels + block.spec.pad) :
    block.shrink x.cut = .ok (x.channelRange 0 block.spec.inChannels).cut := by
  have pair := sound.pair
  unfold shrink
  split
  · have dropped : x.unpadChannels block.spec.pad =
        .ok (x.channelRange 0 block.spec.inChannels) := by
      rw [Tensor.unpadChannels_eq_range (by omega), channels, Nat.add_sub_cancel]
    have halved : (x.channelRange 0 block.spec.inChannels).splitAt (block.spec.inChannels / 2) =
        .ok (x.channelRange 0 block.spec.inChannels).cut := Tensor.splitAt_half pair
    rw [Tensor.merge_cut]
    show (x.unpadChannels block.spec.pad >>= fun kept =>
      kept.splitAt (block.spec.inChannels / 2)) = _
    rw [dropped]
    exact halved
  · next unpadded =>
    have none := Nat.eq_zero_of_not_pos unpadded
    have all : block.spec.inChannels = x.shape.channels := by omega
    rw [all, Tensor.channelRange_all]

theorem couple_cut [Add α] (takes : block.spec.Takes shape) (shaped : block.IsShaped)
    {x : Tensor α} (padded : x.shape = block.spec.paddedShape shape) :
    block.couple x.cut = .ok (block.coupled x).cut := by
  obtain ⟨first_shape, second_shape⟩ := shape_cut_padded takes padded
  have first_moves : block.psi.forward x.cut.1 = .ok (block.psi.gather x.cut.1) :=
    Psi.forward_eq_gather (first_shape ▸ takes.full_half) (first_shape ▸ takes.divides_half)
  have second_moves : block.psi.forward x.cut.2 = .ok (block.psi.gather x.cut.2) :=
    Psi.forward_eq_gather (second_shape ▸ takes.full_half) (second_shape ▸ takes.divides_half)
  have updates : block.update x.cut.2 = .ok (block.residual x.cut.2) := by
    rw [update, second_shape, if_pos takes.full_half.hasPixels]
  have first_moved := shape_gather_half takes first_shape
  have updated := shape_residual shaped takes second_shape
  have channels : x.cut.2.shape.channels = block.spec.halfChannels := by rw [second_shape]; rfl
  have shapes : (block.residual x.cut.2).shape = (block.psi.gather x.cut.1).shape :=
    updated.trans first_moved.symm
  rw [cut_coupled takes shaped padded]
  simp only [couple, bind, Except.bind, pure, Except.pure, channels, first_moves, second_moves,
    updates, shapes, ne_eq, not_true_eq_false, if_false]

theorem uncouple_cut [Add α] [Neg α] (takes : block.spec.Takes shape) (shaped : block.IsShaped)
    {y : Tensor α} (output : y.shape = block.spec.output shape) :
    block.uncouple y.cut = .ok (block.uncoupled y).cut := by
  obtain ⟨first_shape, second_shape⟩ := shape_cut_output output
  have second := shape_scatter_moved takes first_shape
  have updated := shape_residual shaped takes second
  have area_lt : block.psi.block * block.psi.block < Count.limit := takes.sound.area_lt
  have second_back : block.psi.inverse y.cut.1 = .ok (block.psi.scatter y.cut.1) :=
    Psi.inverse_eq_scatter (first_shape ▸ takes.full_moved) area_lt
      (first_shape ▸ takes.sound.area_dvd)
  have updates : block.update (block.psi.scatter y.cut.1) =
      .ok (block.residual (block.psi.scatter y.cut.1)) := by
    rw [update, second, if_pos takes.full_half.hasPixels]
  have sum_shape : (-block.residual (block.psi.scatter y.cut.1) + y.cut.2).shape =
      block.spec.movedShape shape := updated
  have first_back : block.psi.inverse (-block.residual (block.psi.scatter y.cut.1) + y.cut.2) =
      .ok (block.psi.scatter (-block.residual (block.psi.scatter y.cut.1) + y.cut.2)) :=
    Psi.inverse_eq_scatter (sum_shape ▸ takes.full_moved) area_lt
      (sum_shape ▸ takes.sound.area_dvd)
  have channels : (block.psi.scatter y.cut.1).shape.channels = block.spec.halfChannels := by
    rw [second]; rfl
  have shapes : (block.residual (block.psi.scatter y.cut.1)).shape = y.cut.2.shape :=
    updated.trans second_shape.symm
  rw [cut_uncoupled takes shaped output]
  simp only [uncouple, bind, Except.bind, pure, Except.pure, channels, second_back, updates,
    first_back, shapes, Tensor.shape_neg, ne_eq, not_true_eq_false, if_false]

/-- Forward, a block advances the merged tensor. -/
theorem forward_cut [Add α] (takes : block.spec.Takes shape) (shaped : block.IsShaped)
    {x : Tensor α} (input : x.shape = shape) :
    block.forward x.cut = .ok (block.advance x).cut := by
  have channels : x.cut.1.shape.channels + x.cut.2.shape.channels = block.spec.inChannels := by
    rw [x.channels_cut, input, takes.channels]
  have coupled := couple_cut takes shaped (shape_padChannels_takes takes input)
  simp only [forward, bind, Except.bind, channels, grow_cut takes input, coupled, ne_eq,
    not_true_eq_false, if_false]
  rfl

/-- Back, a block retreats the merged tensor. -/
theorem inverse_cut [Add α] [Neg α] (takes : block.spec.Takes shape) (shaped : block.IsShaped)
    {y : Tensor α} (output : y.shape = block.spec.output shape) :
    block.inverse y.cut = .ok (block.retreat y).cut := by
  have padded : (block.uncoupled y).shape.channels = block.spec.inChannels + block.spec.pad := by
    rw [shape_uncoupled takes shaped output]
    rfl
  have dropped := shrink_cut takes.sound padded
  simp only [inverse, bind, Except.bind, uncouple_cut takes shaped output, dropped]
  rfl

/-- What a step back goes through when it comes to an end. -/
theorem inverse_eq_ok [Add α] [Neg α] {pair back : Pair α} (steps : block.inverse pair = .ok back) :
    ∃ first second, block.psi.inverse pair.1 = .ok second ∧
      second.shape.channels = block.spec.halfChannels ∧ second.shape.hasPixels = true ∧
      (-block.residual second).shape = pair.2.shape ∧
      block.psi.inverse (-block.residual second + pair.2) = .ok first ∧
      block.shrink (first, second) = .ok back := by
  obtain ⟨halves, uncouples, shrinks⟩ := bind_eq_ok_iff.mp steps
  obtain ⟨second, moves, rest⟩ := bind_eq_ok_iff.mp uncouples
  split at rest
  · cases rest
  · next channels =>
    obtain ⟨updated, updates, rest⟩ := bind_eq_ok_iff.mp rest
    obtain ⟨pixels, rfl⟩ := update_eq_ok_iff.mp updates
    dsimp only at rest
    split at rest
    · cases rest
    · next shapes =>
      obtain ⟨first, restores, made⟩ := bind_eq_ok_iff.mp rest
      cases made
      exact ⟨first, second, moves, Decidable.not_not.mp channels, pixels,
        Decidable.not_not.mp shapes, restores, shrinks⟩

/-- What a step back has found when it comes to an end. -/
theorem exists_of_inverse [Add α] [Neg α] {pair back : Pair α}
    (steps : block.inverse pair = .ok back) :
    ∃ second, block.psi.inverse pair.1 = .ok second ∧
      second.shape.channels = block.spec.halfChannels ∧ second.shape.hasPixels = true ∧
      (-block.residual second).shape = pair.2.shape := by
  obtain ⟨first, second, moves, channels, pixels, shapes, -⟩ := inverse_eq_ok steps
  exact ⟨second, moves, channels, pixels, shapes⟩

/-- A step back refuses a first half of another width than the block puts out. -/
theorem inverse_refuses [Add α] [Neg α] (sound : block.spec.Sound) {pair : Pair α}
    (full : pair.1.shape.IsFull) (other : pair.1.shape.channels ≠ block.spec.outChannels) :
    ∃ cause, block.inverse pair = .error (.shape cause) := by
  have block_pos : 0 < block.psi.block := sound.stride_pos
  have area_lt : block.psi.block * block.psi.block < Count.limit := sound.area_lt
  by_cases divides : block.psi.block * block.psi.block ∣ pair.1.shape.channels
  · -- The half comes back, but with the channels of another block.
    have back := Psi.inverse_eq_scatter full area_lt divides
    have half : (block.psi.scatter pair.1).shape.channels ≠ block.spec.halfChannels := by
      intro same
      rw [Psi.shape_scatter block_pos] at same
      refine other ?_
      rw [← sound.area, ← same]
      exact (Nat.mul_div_cancel' divides).symm
    refine ⟨.inverseHalf block.spec.halfChannels (block.psi.scatter pair.1).shape, ?_⟩
    simp only [inverse, uncouple, bind, Except.bind, back, half, ne_eq, not_false_eq_true, if_true]
    rfl
  · have refused := Psi.inverse_refuses block_pos area_lt divides
    exact ⟨_, by simp only [inverse, uncouple, bind, Except.bind, refused]; rfl⟩

/-! ## Over a group -/

section Group

variable {β : Type u} [AddGroup β] {step : Coupling β}

/-- Uncoupling takes away exactly what coupling has added, whatever that is. -/
theorem uncoupled_coupled (takes : step.spec.Takes shape) (shaped : step.IsShaped)
    {x : Tensor β} (padded : x.shape = step.spec.paddedShape shape) :
    step.uncoupled (step.coupled x) = x := by
  obtain ⟨first_shape, second_shape⟩ := shape_cut_padded takes padded
  have second_back : step.psi.scatter (step.psi.gather x.cut.2) = x.cut.2 :=
    Psi.scatter_gather (second_shape ▸ takes.divides_half)
  have first_back : step.psi.scatter (step.psi.gather x.cut.1) = x.cut.1 :=
    Psi.scatter_gather (first_shape ▸ takes.divides_half)
  have shapes : (step.residual x.cut.2).shape = (step.psi.gather x.cut.1).shape := by
    rw [shape_residual shaped takes second_shape, shape_gather_half takes first_shape]
  rw [uncoupled, cut_coupled takes shaped padded]
  simp only [second_back]
  rw [Tensor.neg_add_cancel_left' shapes, first_back]
  exact Tensor.append_channelRange x (Nat.div_le_self _ 2)

/-- Every tensor of the shape of an output is a coupling. -/
theorem coupled_uncoupled (takes : step.spec.Takes shape) (shaped : step.IsShaped)
    {y : Tensor β} (output : y.shape = step.spec.output shape) :
    step.coupled (step.uncoupled y) = y := by
  obtain ⟨first_shape, second_shape⟩ := shape_cut_output output
  have second := shape_scatter_moved takes first_shape
  have updated := shape_residual shaped takes second
  have stride_pos : 0 < step.psi.block := takes.sound.stride_pos
  have second_again : step.psi.gather (step.psi.scatter y.cut.1) = y.cut.1 :=
    Psi.gather_scatter stride_pos (first_shape ▸ takes.sound.area_dvd)
  have sum_shape : (-step.residual (step.psi.scatter y.cut.1) + y.cut.2).shape =
      step.spec.movedShape shape := updated
  have first_again : step.psi.gather (step.psi.scatter
      (-step.residual (step.psi.scatter y.cut.1) + y.cut.2)) =
        -step.residual (step.psi.scatter y.cut.1) + y.cut.2 :=
    Psi.gather_scatter stride_pos (sum_shape ▸ takes.sound.area_dvd)
  rw [coupled, cut_uncoupled takes shaped output]
  simp only [second_again, first_again]
  rw [Tensor.add_neg_cancel_left' (updated.trans second_shape.symm)]
  exact Tensor.append_channelRange y (Nat.div_le_self _ 2)

/-- Going back from where a step has led gives the start. -/
theorem retreat_advance (takes : step.spec.Takes shape) (shaped : step.IsShaped)
    {x : Tensor β} (input : x.shape = shape) : step.retreat (step.advance x) = x := by
  have padded := shape_padChannels_takes takes input
  have channels : step.spec.inChannels = x.shape.channels := by rw [input, takes.channels]
  rw [retreat, advance, uncoupled_coupled takes shaped padded, channels,
    Tensor.channelRange_padChannels]

/-- Going forward from where a step back has led gives the start exactly if the
channels dropped on the way back were zero. -/
theorem advance_retreat_iff (takes : step.spec.Takes shape) (shaped : step.IsShaped)
    {y : Tensor β} (output : y.shape = step.spec.output shape) :
    step.advance (step.retreat y) = y ↔
      (step.uncoupled y).VanishesFrom step.spec.inChannels := by
  have padded := shape_uncoupled takes shaped output
  have channels : (step.uncoupled y).shape.channels = step.spec.inChannels + step.spec.pad := by
    rw [padded]
    rfl
  have kept : (step.uncoupled y).shape.channels - step.spec.pad = step.spec.inChannels := by
    rw [channels, Nat.add_sub_cancel]
  rw [← kept, ← Tensor.padChannels_channelRange_iff _ (by omega), kept]
  apply Iff.intro
  · intro again
    have repadded := shape_padChannels_takes takes (shape_retreat takes shaped output)
    have uncoupled := congrArg step.uncoupled again
    rw [advance, uncoupled_coupled takes shaped repadded] at uncoupled
    exact uncoupled
  · intro restored
    rw [advance, retreat, restored, coupled_uncoupled takes shaped output]

end Group

end Coupling

end InvertibleNet
