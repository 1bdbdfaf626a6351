/-
# Deeper stages

A stage with one more block. The stages decide what is accepted, and the depths do not, so
the deeper configuration is accepted as well, and there is room for its weights, as the new
block has no array that is larger than those of the blocks beside it. Its plan differs
from the old one in the new block and in the numbers of the blocks behind it, and its network
stores what the new block stores in addition.
-/

import InvertibleNet.Proofs.Network.Parameters
import InvertibleNet.Proofs.Random.Batch
import InvertibleNet.Proofs.Schedule.Insertion

namespace InvertibleNet

/-! ## The new block -/

namespace Schedule

variable {place width multiplier : Nat}

theorem fault?_repeated (multiplier_pos : 1 ≤ multiplier) (multiplier_le : multiplier ≤ width)
    (room : 2 * width < Count.limit) : (repeated place width).fault? multiplier = none :=
  (BlockSpec.fault?_eq_none_iff room).mpr
    ⟨by show 2 ≤ 2 * width; omega, multiplier_pos, multiplier_le, .inl ⟨rfl, Nat.le_refl _⟩⟩

theorem pad_repeated (room : 2 * width < Count.limit) : (repeated place width).pad = 0 := by
  rw [BlockSpec.pad_of_stride_one room rfl]
  exact Nat.sub_self _

/-- A block that repeats a width pads nothing. -/
theorem isInjective_repeated (room : 2 * width < Count.limit) :
    (repeated place width).isInjective = false := by
  rw [BlockSpec.isInjective, pad_repeated room]
  rfl

theorem halfChannels_repeated (room : 2 * width < Count.limit) :
    (repeated place width).halfChannels = width := by
  rw [BlockSpec.halfChannels, pad_repeated room]
  show (2 * width + 0) / 2 = width
  omega

/-- What a new block of the given width stores, its normalisation in front included. -/
def deepeningStorage (width multiplier : Nat) : Nat :=
  let inner := width / multiplier
  9 * inner * (2 * width + inner) + 8 * inner + 4 * width

theorem layerStorage_repeated (room : 2 * width < Count.limit) :
    (repeated place width).layerStorage multiplier = deepeningStorage width multiplier := by
  unfold BlockSpec.layerStorage deepeningStorage
  rw [halfChannels_repeated room, BlockSpec.bottleneckWidth_eq]
  show 9 * (width / multiplier) * (width + width / multiplier + width) +
    8 * (width / multiplier) + 4 * width = _
  ring

end Schedule

/-- The extents of a kernel can change places. -/
theorem Shape.isAddressable_swap {first second height width : Nat}
    (full : (Shape.mk first second height width).IsFull)
    (addressable : (Shape.mk first second height width).isAddressable = true) :
    (Shape.mk second first height width).isAddressable = true := by
  obtain ⟨first_pos, second_pos, extents⟩ := full
  have swapped : (Shape.mk second first height width).IsFull := ⟨second_pos, first_pos, extents⟩
  rw [swapped.isAddressable_iff]
  have bytes := (IsFull.isAddressable_iff ⟨first_pos, second_pos, extents⟩).mp addressable
  unfold size at bytes ⊢
  rwa [Nat.mul_comm second first]

/-- There is room for a block that repeats a width wherever there is room for one that has
it. -/
theorem Bottleneck.canExist_repeated {spec : BlockSpec} {multiplier place : Nat}
    (positive : 1 ≤ multiplier) (wide : multiplier ≤ spec.outChannels)
    (room : 2 * spec.outChannels < Count.limit) (possible : canExist spec multiplier = true) :
    canExist (Schedule.repeated place spec.outChannels) multiplier = true := by
  have inner_pos : 0 < spec.outChannels / multiplier := Nat.div_pos wide positive
  unfold canExist at possible ⊢
  simp only [Bool.and_eq_true, BlockSpec.bottleneckWidth_eq] at possible ⊢
  obtain ⟨⟨-, inner⟩, leave⟩ := possible
  rw [Schedule.halfChannels_repeated room]
  have full : (Shape.mk spec.outChannels (spec.outChannels / multiplier) 3 3).IsFull :=
    ⟨Nat.lt_of_lt_of_le positive wide, inner_pos, Nat.succ_pos 2, Nat.succ_pos 2⟩
  exact ⟨⟨Shape.isAddressable_swap full leave, inner⟩, leave⟩

namespace NetworkConfig

/-! ## The deeper configuration -/

/-- The configuration with one more block in a stage. -/
def deepened (config : NetworkConfig) (stage : Nat) : NetworkConfig :=
  { config with blocks := config.blocks.modify stage (· + 1) }

/-- The place behind the last block of a stage. -/
def placeBehind (config : NetworkConfig) (stage : Nat) : Nat :=
  Schedule.place config.blocks (stage + 1) 0

variable {config : NetworkConfig} {plan : Plan} {stage depth width stride : Nat}

theorem widths_deepened : (config.deepened stage).widths = config.widths := by
  unfold widths deepened
  rw [List.length_modify]
  rfl

theorem listed_deepened (listed : Schedule.Listed config.widths config.blocks config.strides) :
    Schedule.Listed (config.deepened stage).widths (config.deepened stage).blocks
      (config.deepened stage).strides := by
  obtain ⟨lengths, depths, widths, strides⟩ := listed
  rw [widths_deepened]
  refine ⟨?_, ?_, widths, strides⟩
  · show _ = (config.blocks.modify stage (· + 1)).length ∧
      (config.blocks.modify stage (· + 1)).length = _ ∧
        1 ≤ (config.blocks.modify stage (· + 1)).length
    rw [List.length_modify]
    exact lengths
  · intro depth member
    obtain ⟨place, here⟩ := List.mem_iff_getElem?.mp member
    rw [deepened, List.getElem?_modify, Option.map_eq_map,
      Option.map_eq_some_iff] at here
    obtain ⟨old, found, rfl⟩ := here
    have positive := depths old (List.mem_of_getElem? found)
    split <;> omega

/-- Every stage has a block, a width and a stride. -/
theorem Schedulable.exists_stage (schedulable : config.Schedulable)
    (inside : stage < config.blocks.length) :
    ∃ depth width stride, config.blocks[stage]? = some (depth + 1) ∧
      config.widths[stage]? = some width ∧ config.strides[stage]? = some stride := by
  obtain ⟨⟨widths_length, strides_length, -⟩, depths, -⟩ := schedulable.listed
  have deep := List.getElem?_eq_getElem inside
  have positive := depths _ (List.mem_of_getElem? deep)
  refine ⟨config.blocks[stage] - 1, _, _, ?_,
    List.getElem?_eq_getElem (show stage < config.widths.length by omega),
    List.getElem?_eq_getElem (show stage < config.strides.length by omega)⟩
  rw [deep, Nat.sub_add_cancel positive]

/-- The widths and strides of the blocks, in the order of the schedule. -/
def steps (config : NetworkConfig) : List (Nat × Nat) :=
  (Schedule.flattenedChannels config.widths config.blocks).zip
    (Schedule.flattenedStrides config.blocks config.strides)

section Stage

variable (deep : config.blocks[stage]? = some (depth + 1))
  (wide : config.widths[stage]? = some width) (strode : config.strides[stage]? = some stride)

include deep wide strode

theorem steps_deepened :
    (config.deepened stage).steps = config.steps.take (config.placeBehind stage) ++
      (width, 1) :: config.steps.drop (config.placeBehind stage) := by
  unfold steps
  rw [widths_deepened]
  exact Schedule.zip_flattened_modify deep wide strode

theorem placeBehind_bounds :
    1 ≤ config.placeBehind stage ∧ config.placeBehind stage ≤ config.steps.length := by
  have last := Schedule.getElem?_zip_flattened deep wide strode (Nat.lt_succ_self depth)
  obtain ⟨found, -⟩ := List.getElem?_eq_some_iff.mp last
  rw [placeBehind, Schedule.place_succ deep]
  exact ⟨Nat.le_add_left _ _, found⟩

/-- Behind the last block of a stage there are both halves of its width. -/
theorem entering_placeBehind :
    Schedule.entering config.enteringChannels config.steps (config.placeBehind stage) =
      2 * width := by
  rw [placeBehind, Schedule.place_succ deep]
  exact Schedule.entering_repeated deep wide strode (Nat.lt_succ_self depth) _

/-- The schedule of the deeper configuration. -/
theorem specs_deepened :
    (config.deepened stage).specs =
      config.specs.take (config.placeBehind stage) ++
        Schedule.repeated (config.placeBehind stage) width ::
          (config.specs.drop (config.placeBehind stage)).map (·.raised) := by
  obtain ⟨later, inside⟩ := placeBehind_bounds deep wide strode
  have inserted := Schedule.chain_insert later inside (entering_placeBehind deep wide strode)
  exact (congrArg (Schedule.chain 0 config.enteringChannels)
    (steps_deepened deep wide strode)).trans inserted

/-- What leaves the last block is what left it before. -/
theorem outChannels_deepened :
    (config.deepened stage).planned.outChannels = config.planned.outChannels := by
  obtain ⟨later, inside⟩ := placeBehind_bounds deep wide strode
  have new := steps_deepened deep wide strode
  have leaves := Schedule.entering_insert inside (entering_placeBehind deep wide strode)
  have before : config.steps ≠ [] := List.ne_nil_of_length_pos (Nat.lt_of_lt_of_le later inside)
  have behind : (config.deepened stage).steps ≠ [] := by
    rw [new]
    simp
  have length : (config.deepened stage).steps.length = config.steps.length + 1 := by
    rw [new]
    simp only [List.length_append, List.length_cons, List.length_take, List.length_drop]
    omega
  calc (config.deepened stage).planned.outChannels
      = Schedule.entering config.enteringChannels (config.deepened stage).steps
          (config.deepened stage).steps.length := Schedule.features_chain behind 0 _
    _ = Schedule.entering config.enteringChannels config.steps config.steps.length := by
        rw [length, new, leaves]
    _ = config.planned.outChannels := (Schedule.features_chain before 0 _).symm

/-- What holds of every block and of the new one, whatever their numbers, holds of every block
of the deeper configuration. -/
theorem forall_specs_deepened {holds : BlockSpec → Prop} (old : ∀ spec ∈ config.specs, holds spec)
    (raised : ∀ spec, holds spec → holds spec.raised)
    (new : holds (Schedule.repeated (config.placeBehind stage) width)) :
    ∀ spec ∈ (config.deepened stage).specs, holds spec := by
  rw [specs_deepened deep wide strode, List.forall_mem_append, List.forall_mem_cons,
    List.forall_mem_map]
  exact ⟨fun spec member => old spec (List.mem_of_mem_take member), new,
    fun spec member => raised spec (old spec (List.mem_of_mem_drop member))⟩

theorem Schedulable.exists_last_block (schedulable : config.Schedulable) :
    ∃ spec ∈ config.specs, spec.outChannels = width := by
  have spells := Schedule.spellsOut_chain schedulable.listed config.enteringChannels
  obtain ⟨spec, here, width_eq, -⟩ :=
    spells.stages stage _ width stride depth deep wide strode (Nat.lt_succ_self depth)
  exact ⟨spec, List.mem_of_getElem? here, width_eq⟩

/-- The multiplier leaves a width inside every stage. -/
theorem Schedulable.multiplier_le (schedulable : config.Schedulable) :
    config.multiplier ≤ width := by
  obtain ⟨spec, member, rfl⟩ := schedulable.exists_last_block deep wide strode
  have room := schedulable.listed.room (List.mem_of_getElem? wide)
  exact ((BlockSpec.fault?_eq_none_iff room).mp (schedulable.blocks spec member)).2.2.1

end Stage

/-! ## Acceptance -/

theorem Schedulable.deepened (schedulable : config.Schedulable)
    (inside : stage < config.blocks.length) : (config.deepened stage).Schedulable := by
  obtain ⟨depth, width, stride, deep, wide, strode⟩ := schedulable.exists_stage inside
  have room := schedulable.listed.room (List.mem_of_getElem? wide)
  have thin := schedulable.multiplier_le deep wide strode
  refine ⟨schedulable.geometry, Schedule.listed_iff.mp (listed_deepened schedulable.listed), ?_⟩
  exact forall_specs_deepened deep wide strode schedulable.blocks (fun _ valid => valid)
    (Schedule.fault?_repeated schedulable.multiplier_pos thin room)

/-- A configuration that is built is built with a deeper stage as well. -/
theorem Builds.deepened (builds : config.Builds plan) (inside : stage < config.blocks.length) :
    (config.deepened stage).Builds (config.deepened stage).planned := by
  obtain ⟨⟨plannable, rate⟩, -⟩ := builds_iff.mp builds
  have deeper := plannable.schedulable.deepened inside
  exact builds_iff.mpr ⟨⟨⟨plannable.classes, deeper.geometry, deeper.stages, deeper.blocks⟩, rate⟩,
    rfl⟩

theorem checkRoom_eq_ok_iff {plan : Plan} :
    config.checkRoom plan = .ok () ↔
      (∀ spec ∈ plan.specs, Bottleneck.canExist spec config.multiplier = true) ∧
        (Shape.mk 1 1 plan.outChannels plan.classes).isAddressable = true := by
  unfold checkRoom
  split
  · next possible => simpa using possible
  · next impossible => simpa using impossible

/-- Where there is room for the weights of a plan, there is room for those of the deeper one. -/
theorem Schedulable.checkRoom_deepened (schedulable : config.Schedulable)
    (inside : stage < config.blocks.length) (room : config.checkRoom config.planned = .ok ()) :
    (config.deepened stage).checkRoom (config.deepened stage).planned = .ok () := by
  obtain ⟨depth, width, stride, deep, wide, strode⟩ := schedulable.exists_stage inside
  have fits := schedulable.listed.room (List.mem_of_getElem? wide)
  have thin := schedulable.multiplier_le deep wide strode
  obtain ⟨blocks, classifier⟩ := checkRoom_eq_ok_iff.mp room
  obtain ⟨last, member, rfl⟩ := schedulable.exists_last_block deep wide strode
  refine checkRoom_eq_ok_iff.mpr ⟨?_, ?_⟩
  · exact forall_specs_deepened deep wide strode blocks (fun _ possible => possible)
      (Bottleneck.canExist_repeated schedulable.multiplier_pos thin fits (blocks last member))
  · rw [outChannels_deepened deep wide strode]
    exact classifier

/-! ## Storage -/

/-- The blocks of the deeper configuration store what the new one does in addition. -/
theorem Schedulable.storage_deepened (schedulable : config.Schedulable)
    (inside : stage < config.blocks.length) (wide : config.widths[stage]? = some width) :
    Schedule.storage config.multiplier config.classes (config.deepened stage).specs =
      Schedule.storage config.multiplier config.classes config.specs +
        Schedule.deepeningStorage width config.multiplier := by
  obtain ⟨depth, other, stride, deep, again, strode⟩ := schedulable.exists_stage inside
  obtain rfl : width = other := Option.some_injective _ (wide.symm.trans again)
  have room := schedulable.listed.room (List.mem_of_getElem? wide)
  have old : (config.specs.map (·.layerStorage config.multiplier)).sum =
      ((config.specs.take (config.placeBehind stage)).map (·.layerStorage config.multiplier)).sum +
        ((config.specs.drop (config.placeBehind stage)).map
          (·.layerStorage config.multiplier)).sum := by
    rw [← List.sum_append, ← List.map_append, List.take_append_drop]
  -- The number of a block is not part of what it stores.
  have new : ((config.deepened stage).specs.map (·.layerStorage config.multiplier)).sum =
      (config.specs.map (·.layerStorage config.multiplier)).sum +
        Schedule.deepeningStorage width config.multiplier := by
    rw [specs_deepened deep again strode, List.map_append, List.map_cons, List.map_map,
      List.sum_append, List.sum_cons, Schedule.layerStorage_repeated room, old, Nat.add_left_comm,
      Nat.add_comm]
    rfl
  have deeper : Schedule.storage config.multiplier config.classes (config.deepened stage).specs =
      ((config.deepened stage).specs.map (·.layerStorage config.multiplier)).sum +
        4 * (config.deepened stage).planned.outChannels +
        (config.deepened stage).planned.outChannels * config.classes + config.classes :=
    (schedulable.deepened inside).storage_eq
  rw [deeper, schedulable.storage_eq, outChannels_deepened deep again strode, new]
  omega

end NetworkConfig

end InvertibleNet
