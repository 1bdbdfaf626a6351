/-
# Shapes along a schedule

What a schedule promises about shapes: every block finds as many channels as it
was built for, a spatial size that its stride divides, and no empty axis. The
promise is about all blocks at once, because each block changes the shape that
the next one finds. A chain of sound blocks keeps it as soon as the product of
their strides divides height and width in front of the first.
-/

import Mathlib.Algebra.Group.Nat.Defs
import InvertibleNet.Proofs.Schedule.Places
import InvertibleNet.Proofs.Tensor.Halves

namespace InvertibleNet

namespace BlockSpec

/-- Whether a block takes tensors of the shape. -/
structure Takes (spec : BlockSpec) (shape : Shape) : Prop where
  sound : spec.Sound
  channels : shape.channels = spec.inChannels
  full : shape.IsFull
  height : spec.stride ∣ shape.height
  width : spec.stride ∣ shape.width

/-- The shape behind a block, both halves together. -/
def output (spec : BlockSpec) (shape : Shape) : Shape :=
  ⟨shape.batch, 2 * spec.outChannels, shape.height / spec.stride, shape.width / spec.stride⟩

theorem Sound.stride_pos {spec : BlockSpec} (sound : spec.Sound) : 0 < spec.stride := by
  rcases sound.stride with one | two <;> omega

theorem Sound.halfChannels_pos {spec : BlockSpec} (sound : spec.Sound) : 0 < spec.halfChannels := by
  have := sound.pair
  have := sound.halves
  omega

theorem Sound.outChannels_pos {spec : BlockSpec} (sound : spec.Sound) : 0 < spec.outChannels := by
  rw [← sound.area]
  exact Nat.mul_pos (Nat.mul_pos sound.stride_pos sound.stride_pos) sound.halfChannels_pos

/-- No axis becomes empty in a block. -/
theorem Takes.full_output {spec : BlockSpec} {shape : Shape} (takes : spec.Takes shape) :
    (spec.output shape).IsFull := by
  obtain ⟨batch_pos, -, height_pos, width_pos⟩ := takes.full
  refine ⟨batch_pos, Nat.mul_pos Nat.two_pos takes.sound.outChannels_pos, ?_, ?_⟩
  · exact Nat.div_pos (Nat.le_of_dvd height_pos takes.height) takes.sound.stride_pos
  · exact Nat.div_pos (Nat.le_of_dvd width_pos takes.width) takes.sound.stride_pos

end BlockSpec

namespace Schedule

/-- Whether tensors of a shape pass through all blocks. -/
def Passes : List BlockSpec → Shape → Prop
  | [], _ => True
  | spec :: specs, shape => spec.Takes shape ∧ Passes specs (spec.output shape)

/-- The shape behind the last block. -/
def output (specs : List BlockSpec) (shape : Shape) : Shape :=
  specs.foldl (fun state spec => spec.output state) shape

/-- The factor by which a schedule shrinks height and width. -/
def shrinkage (specs : List BlockSpec) : Nat := (specs.map (·.stride)).prod

theorem shrinkage_cons (spec : BlockSpec) (specs : List BlockSpec) :
    shrinkage (spec :: specs) = spec.stride * shrinkage specs := by
  simp [shrinkage]

theorem shrinkage_chain (index inChannels : Nat) (steps : List (Nat × Nat)) :
    shrinkage (chain index inChannels steps) = (steps.map (·.2)).prod := by
  rw [shrinkage, map_stride_chain]

/-- A chain of sound blocks passes what has the channels of its first block and a
spatial size that all its strides together divide. -/
theorem passes_chain {index inChannels : Nat} {steps : List (Nat × Nat)} {shape : Shape}
    (sound : ∀ spec ∈ chain index inChannels steps, spec.Sound) (full : shape.IsFull)
    (channels : shape.channels = inChannels)
    (height : shrinkage (chain index inChannels steps) ∣ shape.height)
    (width : shrinkage (chain index inChannels steps) ∣ shape.width) :
    Passes (chain index inChannels steps) shape := by
  induction steps generalizing index inChannels shape with
  | nil => trivial
  | cons step steps ih =>
      rw [chain, shrinkage_cons] at height width
      rw [chain, List.forall_mem_cons] at sound
      obtain ⟨here, later⟩ := sound
      have takes : BlockSpec.Takes _ shape :=
        ⟨here, channels, full, Nat.dvd_trans (Nat.dvd_mul_right _ _) height,
          Nat.dvd_trans (Nat.dvd_mul_right _ _) width⟩
      refine ⟨takes, ih later takes.full_output rfl ?_ ?_⟩
      · exact (Nat.dvd_div_iff_mul_dvd takes.height).mpr height
      · exact (Nat.dvd_div_iff_mul_dvd takes.width).mpr width

/-- Behind a schedule stand the halves of its last block, and height and width
have shrunk by all strides. -/
theorem output_eq {specs : List BlockSpec} {last : BlockSpec} (ends : specs.getLast? = some last)
    (shape : Shape) :
    output specs shape =
      ⟨shape.batch, 2 * last.outChannels, shape.height / shrinkage specs,
        shape.width / shrinkage specs⟩ := by
  induction specs generalizing shape with
  | nil => cases ends
  | cons spec specs ih =>
      cases specs with
      | nil =>
          cases ends
          simp [output, BlockSpec.output, shrinkage]
      | cons next specs =>
          rw [shrinkage_cons, ← Nat.div_div_eq_div_mul, ← Nat.div_div_eq_div_mul]
          exact ih (by simpa using ends) (spec.output shape)

/-! ## Other spatial sizes -/

theorem Passes.sound {specs : List BlockSpec} {shape : Shape} (passes : Passes specs shape) :
    ∀ spec ∈ specs, spec.Sound := by
  induction specs generalizing shape with
  | nil => exact fun _ member => absurd member List.not_mem_nil
  | cons spec specs ih =>
      rw [List.forall_mem_cons]
      exact ⟨passes.1.sound, ih passes.2⟩

theorem shrinkage_pos {specs : List BlockSpec} (sound : ∀ spec ∈ specs, spec.Sound) :
    0 < shrinkage specs := by
  induction specs with
  | nil => exact Nat.one_pos
  | cons spec specs ih =>
      rw [List.forall_mem_cons] at sound
      rw [shrinkage_cons]
      exact Nat.mul_pos sound.1.stride_pos (ih sound.2)

/-- What a schedule has to say about a shape besides its channels is that the
strides divide height and width, so it lets through every other size that they
divide. -/
theorem Passes.resize {specs : List BlockSpec} {shape : Shape} (passes : Passes specs shape)
    {batch height width : Nat} (batch_pos : 0 < batch) (height_pos : 0 < height)
    (width_pos : 0 < width) (height_dvd : shrinkage specs ∣ height)
    (width_dvd : shrinkage specs ∣ width) :
    Passes specs ⟨batch, shape.channels, height, width⟩ := by
  induction specs generalizing shape height width with
  | nil => trivial
  | cons spec specs ih =>
      rw [shrinkage_cons] at height_dvd width_dvd
      obtain ⟨takes, rest⟩ := passes
      have resized : spec.Takes ⟨batch, shape.channels, height, width⟩ :=
        ⟨takes.sound, takes.channels, ⟨batch_pos, takes.full.2.1, height_pos, width_pos⟩,
          Nat.dvd_trans (Nat.dvd_mul_right _ _) height_dvd,
          Nat.dvd_trans (Nat.dvd_mul_right _ _) width_dvd⟩
      obtain ⟨-, -, height_left, width_left⟩ := resized.full_output
      refine ⟨resized, ih rest height_left width_left ?_ ?_⟩
      · exact (Nat.dvd_div_iff_mul_dvd resized.height).mpr height_dvd
      · exact (Nat.dvd_div_iff_mul_dvd resized.width).mpr width_dvd

/-- The channels behind a schedule do not depend on batch, height and width, and
these are divided by the strides whatever they are. -/
theorem output_resize (specs : List BlockSpec) (shape : Shape) (batch height width : Nat) :
    output specs ⟨batch, shape.channels, height, width⟩ =
      ⟨batch, (output specs shape).channels, height / shrinkage specs,
        width / shrinkage specs⟩ := by
  induction specs generalizing shape height width with
  | nil => simp [output, shrinkage]
  | cons spec specs ih =>
      rw [shrinkage_cons, ← Nat.div_div_eq_div_mul, ← Nat.div_div_eq_div_mul]
      exact ih (spec.output shape) (height / spec.stride) (width / spec.stride)

/-- Behind a schedule there are at least as many values for each pixel as its
strides have gathered. -/
theorem Passes.channels_le {specs : List BlockSpec} {shape : Shape}
    (passes : Passes specs shape) :
    shrinkage specs * shrinkage specs * shape.channels ≤ (output specs shape).channels := by
  induction specs generalizing shape with
  | nil => simp [output, shrinkage]
  | cons spec specs ih =>
      obtain ⟨takes, rest⟩ := passes
      have sound := takes.sound
      have grown : spec.stride * spec.stride * spec.inChannels ≤ 2 * spec.outChannels :=
        calc spec.stride * spec.stride * spec.inChannels
            ≤ spec.stride * spec.stride * (2 * spec.halfChannels) :=
              Nat.mul_le_mul_left _ (sound.halves ▸ Nat.le_add_right _ _)
          _ = 2 * spec.outChannels := by rw [← sound.area, Nat.mul_left_comm]
      calc shrinkage (spec :: specs) * shrinkage (spec :: specs) * shape.channels
          = shrinkage specs * shrinkage specs * (spec.stride * spec.stride * spec.inChannels) := by
            rw [shrinkage_cons, takes.channels]
            ac_rfl
        _ ≤ shrinkage specs * shrinkage specs * (spec.output shape).channels :=
            Nat.mul_le_mul_left _ grown
        _ ≤ (output specs (spec.output shape)).channels := ih rest

end Schedule

end InvertibleNet
