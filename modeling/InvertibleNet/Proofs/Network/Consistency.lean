/-
# Consistency of a plan

A plan holds the results of two computations that never look at each other: the
schedule counts channels, the geometry counts pixels. For a configuration that is
built they agree. What the rearrangement at the entrance gives is what the first
block takes, every block takes what the one in front of it gives, and what the
last block gives has the extents that the geometry announces.
-/

import InvertibleNet.Proofs.Network.Plan
import InvertibleNet.Proofs.Schedule.Passage

namespace InvertibleNet

/-- The shape of a batch of samples. -/
def SampleShape.batched (sample : SampleShape) (batch : Nat) : Shape :=
  ⟨batch, sample.channels, sample.height, sample.width⟩

namespace Schedule

/-- What passes through all blocks has no empty axis behind them. -/
theorem Passes.full_output {specs : List BlockSpec} {shape : Shape} (passes : Passes specs shape)
    (full : shape.IsFull) : (output specs shape).IsFull := by
  induction specs generalizing shape with
  | nil => exact full
  | cons spec specs ih => exact ih passes.2 passes.1.full_output

end Schedule

namespace Plan

/-- The shape in front of the first block. -/
def entered (plan : Plan) (batch : Nat) : Shape :=
  ⟨batch, plan.inChannels, plan.geometry.input.height / plan.geometry.initialBlock,
    plan.geometry.input.width / plan.geometry.initialBlock⟩

/-- The extents of the features of one sample. -/
def features (plan : Plan) : SampleShape := ⟨plan.outChannels, plan.pooled.1, plan.pooled.2⟩

/-- What a plan promises about the shapes of a run. -/
structure Consistent (plan : Plan) : Prop where
  block_pos : 0 < plan.geometry.initialBlock
  area_lt : plan.geometry.initialBlock * plan.geometry.initialBlock < Count.limit
  input : (plan.geometry.input.batched 1).IsFull
  height : plan.geometry.initialBlock ∣ plan.geometry.input.height
  width : plan.geometry.initialBlock ∣ plan.geometry.input.width
  channels : plan.geometry.initialBlock * plan.geometry.initialBlock *
    plan.geometry.input.channels = plan.inChannels
  pair : 2 ≤ plan.inChannels
  passes : ∀ batch, 0 < batch → Schedule.Passes plan.specs (plan.entered batch)
  output : ∀ batch, Schedule.output plan.specs (plan.entered batch) = plan.features.batched batch
  even : plan.outChannels % 2 = 0

variable {plan : Plan}

theorem Consistent.full_samples (consistent : plan.Consistent) {batch : Nat} (some : 0 < batch) :
    (plan.geometry.input.batched batch).IsFull :=
  ⟨some, consistent.input.2⟩

theorem Consistent.full_entered (consistent : plan.Consistent) {batch : Nat} (some : 0 < batch) :
    (plan.entered batch).IsFull := by
  obtain ⟨-, -, height_pos, width_pos⟩ := consistent.input
  refine ⟨some, Nat.lt_of_lt_of_le Nat.two_pos consistent.pair, ?_, ?_⟩
  · exact Nat.div_pos (Nat.le_of_dvd height_pos consistent.height) consistent.block_pos
  · exact Nat.div_pos (Nat.le_of_dvd width_pos consistent.width) consistent.block_pos

theorem Consistent.full_features (consistent : plan.Consistent) {batch : Nat} (some : 0 < batch) :
    (plan.features.batched batch).IsFull := by
  rw [← consistent.output]
  exact (consistent.passes batch some).full_output (consistent.full_entered some)

end Plan

namespace NetworkConfig

open Outcome

variable {config : NetworkConfig}

theorem Schedulable.listed (schedulable : config.Schedulable) :
    Schedule.Listed config.widths config.blocks config.strides :=
  Schedule.listed_iff.mpr schedulable.stages

theorem Schedulable.sound (schedulable : config.Schedulable) : ∀ spec ∈ config.specs, spec.Sound := by
  intro spec member
  have room := schedulable.listed.room (Schedule.outChannels_mem member)
  exact BlockSpec.sound_of_fault?_eq_none room (schedulable.blocks spec member)

/-- The blocks shrink a sample by what the geometry has counted. -/
theorem Schedulable.shrinkage (schedulable : config.Schedulable) :
    Schedule.shrinkage config.specs = 2 ^ config.strides.count 2 := by
  obtain ⟨⟨widths_length, strides_length, -⟩, depths, -, supported⟩ := schedulable.listed
  rw [specs, Schedule.shrinkage_chain,
    Schedule.map_snd_zip_flattened widths_length strides_length,
    Schedule.prod_flattenedStrides strides_length depths, Schedule.prod_strides supported]

theorem initialBlock_dvd (sound : config.plannedGeometry.Sound) :
    config.plannedGeometry.initialBlock ∣ config.input.height ∧
      config.plannedGeometry.initialBlock ∣ config.input.width := by
  have divides := Geometry.initialBlock_dvd_planned config.input config.initialBlock config.strides
  exact ⟨Nat.dvd_trans divides sound.stride_dvd_height, Nat.dvd_trans divides sound.stride_dvd_width⟩

theorem Schedulable.passes (schedulable : config.Schedulable) {batch : Nat} (some : 0 < batch) :
    Schedule.Passes config.specs (config.planned.entered batch) := by
  have geometry := schedulable.geometry
  have block_pos : 0 < config.plannedGeometry.initialBlock := Nat.le_max_right _ _
  have height_dvd : config.plannedGeometry.initialBlock * 2 ^ config.strides.count 2 ∣
      config.input.height := geometry.stride_dvd_height
  have width_dvd : config.plannedGeometry.initialBlock * 2 ^ config.strides.count 2 ∣
      config.input.width := geometry.stride_dvd_width
  obtain ⟨height_block, width_block⟩ := initialBlock_dvd geometry
  refine Schedule.passes_chain schedulable.sound ⟨some, ?_, ?_, ?_⟩ rfl ?_ ?_
  · exact Nat.mul_pos geometry.channels (Nat.pow_pos block_pos)
  · exact Nat.div_pos (Nat.le_of_dvd geometry.height height_block) block_pos
  · exact Nat.div_pos (Nat.le_of_dvd geometry.width width_block) block_pos
  · show Schedule.shrinkage config.specs ∣ _
    rw [schedulable.shrinkage]
    exact (Nat.dvd_div_iff_mul_dvd height_block).mpr height_dvd
  · show Schedule.shrinkage config.specs ∣ _
    rw [schedulable.shrinkage]
    exact (Nat.dvd_div_iff_mul_dvd width_block).mpr width_dvd

theorem Schedulable.output (schedulable : config.Schedulable) (batch : Nat) :
    Schedule.output config.specs (config.planned.entered batch) =
      config.planned.features.batched batch := by
  have ends := List.getLast?_eq_some_getLast (specs_ne_nil schedulable.stages)
  rw [Schedule.output_eq ends, schedulable.shrinkage]
  simp only [Plan.entered, Plan.features, SampleShape.batched, planned, ends, Option.elim_some,
    Nat.div_div_eq_div_mul]
  rfl

/-- The plan of a network is consistent. -/
theorem Builds.consistent {plan : Plan} (builds : config.Builds plan) : plan.Consistent := by
  obtain ⟨⟨plannable, -⟩, rfl⟩ := builds_iff.mp builds
  have schedulable := plannable.schedulable
  have geometry := schedulable.geometry
  have divides := Geometry.initialBlock_dvd_planned config.input config.initialBlock config.strides
  have pair : 2 ≤ config.enteringChannels := by
    have passes := schedulable.passes Nat.one_pos
    cases blocks : config.specs with
    | nil => exact absurd blocks (specs_ne_nil schedulable.stages)
    | cons spec specs =>
        rw [blocks] at passes
        have entering : config.enteringChannels = spec.inChannels := passes.1.channels
        rw [entering]
        exact passes.1.sound.pair
  have area : config.plannedGeometry.initialBlock ^ 2 < Count.limit :=
    Nat.lt_of_le_of_lt (Nat.le_mul_of_pos_left _ geometry.channels) geometry.word
  exact {
    block_pos := Nat.le_max_right _ _
    area_lt := Nat.pow_two _ ▸ area
    input := ⟨Nat.one_pos, geometry.channels, geometry.height, geometry.width⟩
    height := Nat.dvd_trans divides geometry.stride_dvd_height
    width := Nat.dvd_trans divides geometry.stride_dvd_width
    channels := by
      rw [← Nat.pow_two, Nat.mul_comm]
      rfl
    pair := pair
    passes := fun _ some => schedulable.passes some
    output := schedulable.output
    even := Nat.mul_mod_right 2 _ }

/-- A small configuration: its first block takes an odd number of channels and
pads them, its second one downsamples. -/
def small : NetworkConfig where
  blocks := [1, 1]
  strides := [1, 2]
  classes := 2
  input := ⟨3, 2, 2⟩
  channels := some [2, 8]
  initialBlock := 0
  dropoutRate := .zero
  multiplier := 1

theorem builds_small : small.Builds small.planned := by
  have plannable : small.Plannable := by
    refine ⟨by decide, ⟨by decide, by decide, by decide, by decide, ?_, ?_, by decide⟩, by decide,
      by decide⟩
    · exact Nat.dvd_refl 2
    · exact Nat.dvd_refl 2
  exact builds_iff.mpr ⟨⟨plannable, by decide⟩, rfl⟩

end NetworkConfig

end InvertibleNet
