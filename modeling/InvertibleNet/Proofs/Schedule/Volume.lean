/-
# Values along a schedule

A block loses no value of a sample and makes none up: what it gives is what it was given
and the zeros that it appended. So the values behind a schedule are those in front of it
and all zeros on the way, each block appending to images of the size that the strides
before it have left.
-/

import InvertibleNet.Proofs.Schedule.Passage
import InvertibleNet.Proofs.Tensor.Vacancy

namespace InvertibleNet

/-- A rearrangement keeps the values of a sample. -/
theorem Psi.Divides.sampleSize_gathered {psi : Psi} {shape : Shape} (divides : psi.Divides shape) :
    (psi.gathered shape).sampleSize = shape.sampleSize := by
  obtain ⟨block_pos, ⟨rows, height⟩, ⟨columns, width⟩⟩ := divides
  calc psi.block * psi.block * shape.channels * (shape.height / psi.block) *
        (shape.width / psi.block)
      = psi.block * psi.block * shape.channels * rows * columns := by
        rw [height, width, Nat.mul_div_cancel_left _ block_pos,
          Nat.mul_div_cancel_left _ block_pos]
    _ = shape.channels * (psi.block * rows) * (psi.block * columns) := by ac_rfl
    _ = shape.channels * shape.height * shape.width := by rw [height, width]

/-- The values behind a block are those in front of it and its padding. -/
theorem BlockSpec.Takes.sampleSize_output {spec : BlockSpec} {shape : Shape}
    (takes : spec.Takes shape) :
    (spec.output shape).sampleSize =
      shape.sampleSize + spec.pad * shape.height * shape.width := by
  obtain ⟨rows, height⟩ := takes.height
  obtain ⟨columns, width⟩ := takes.width
  have stride_pos := takes.sound.stride_pos
  calc 2 * spec.outChannels * (shape.height / spec.stride) * (shape.width / spec.stride)
      = 2 * (spec.stride * spec.stride * spec.halfChannels) * rows * columns := by
        rw [takes.sound.area, height, width, Nat.mul_div_cancel_left _ stride_pos,
          Nat.mul_div_cancel_left _ stride_pos]
    _ = 2 * spec.halfChannels * (spec.stride * rows) * (spec.stride * columns) := by ac_rfl
    _ = (shape.channels + spec.pad) * shape.height * shape.width := by
        rw [takes.channels, takes.sound.halves, height, width]
    _ = shape.channels * shape.height * shape.width + spec.pad * shape.height * shape.width := by
        rw [Nat.add_mul, Nat.add_mul]

namespace Schedule

variable {specs : List BlockSpec} {shape : Shape}

/-- Height and width behind a schedule. -/
theorem output_extents (specs : List BlockSpec) (shape : Shape) :
    (output specs shape).height = shape.height / shrinkage specs ∧
      (output specs shape).width = shape.width / shrinkage specs := by
  have resized := output_resize specs shape shape.batch shape.height shape.width
  exact ⟨congrArg Shape.height resized, congrArg Shape.width resized⟩

/-- The block at a place of a schedule takes what the blocks before it give, and these
divide height and width without a remainder. -/
theorem Passes.takes_at (passes : Passes specs shape) {place : Nat} {spec : BlockSpec}
    (here : specs[place]? = some spec) :
    spec.Takes (output (specs.take place) shape) ∧
      shrinkage (specs.take place) ∣ shape.height ∧ shrinkage (specs.take place) ∣ shape.width := by
  induction specs generalizing shape place with
  | nil => cases here
  | cons first specs ih =>
      obtain ⟨takes, rest⟩ := passes
      cases place with
      | zero =>
          cases here
          exact ⟨takes, Nat.one_dvd _, Nat.one_dvd _⟩
      | succ place =>
          obtain ⟨later, height, width⟩ := ih rest here
          rw [List.take_succ_cons, shrinkage_cons]
          exact ⟨later, (Nat.dvd_div_iff_mul_dvd takes.height).mp height,
            (Nat.dvd_div_iff_mul_dvd takes.width).mp width⟩

/-- The values behind a schedule are those in front of it and the padding of all blocks. -/
theorem Passes.sampleSize_output (passes : Passes specs shape) :
    (output specs shape).sampleSize = shape.sampleSize +
      (specs.mapIdx fun place spec => spec.pad * (output (specs.take place) shape).height *
        (output (specs.take place) shape).width).sum := by
  induction specs generalizing shape with
  | nil => rfl
  | cons spec specs ih =>
      obtain ⟨takes, rest⟩ := passes
      rw [List.mapIdx_cons, List.sum_cons, ← Nat.add_assoc]
      rw [show output (spec :: specs) shape = output specs (spec.output shape) from rfl, ih rest,
        takes.sampleSize_output]
      rfl

/-- Up to a block and with it, the strides multiply by one more. -/
theorem shrinkage_take_succ {place : Nat} {spec : BlockSpec} (here : specs[place]? = some spec) :
    shrinkage (specs.take (place + 1)) = shrinkage (specs.take place) * spec.stride := by
  simp [shrinkage, List.take_add_one, here]

end Schedule

end InvertibleNet
