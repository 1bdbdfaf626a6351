/-
# Geometries

A geometry is computed on words: powers and products that may not fit one, remainders and
quotients that have no value at zero. Its checks are ordered so that none of this shows.
Every divisor has been seen to be positive before it is used, and what a geometry has let
through leaves the later products below the limit, in whichever order they are taken. So
the checks accept exactly what they would accept of naturals.

The second half of the module compares a geometry with the schedule beside it. The one
counts the stages that downsample, the other carries the strides block by block. They
agree about the size in front of every block, and then the values of the features are
those of a sample and the zeros of all paddings.
-/

import InvertibleNet.Proofs.Network.Consistency
import InvertibleNet.Proofs.Schedule.Volume
import InvertibleNet.Proofs.Schedule.Words

namespace InvertibleNet

open Outcome

namespace Geometry

/-- Whether one of two sizes leaves a remainder. The second one is divided only if the
first leaves none. -/
def misfits (height width divisor : Nat) : Except Fault Bool := do
  let rows ← Count.remainder height divisor
  if rows ≠ 0 then return true
  let columns ← Count.remainder width divisor
  return columns ≠ 0

theorem misfits_eq {divisor : Nat} (positive : 0 < divisor) (height width : Nat) :
    misfits height width divisor = .ok (height % divisor ≠ 0 ∨ width % divisor ≠ 0) := by
  rw [misfits, Count.remainder_eq positive, Count.remainder_eq positive]
  by_cases tall : height % divisor ≠ 0
  · simp [tall, bind, Except.bind, pure, Except.pure]
  · simp [tall, bind, Except.bind, pure, Except.pure]

/-- The checks of a geometry with every division and every product taken on words. -/
def checkOnWords (geometry : Geometry) : Except Fault Unit :=
  let ⟨channels, height, width⟩ := geometry.input
  let block := geometry.initialBlock
  let stride := geometry.cumulativeStride
  if channels = 0 ∨ height = 0 ∨ width = 0 then
    .error (.config (.emptyInput channels height width))
  else do
    if ← misfits height width block then
      .error (.config (.initialBlockMisfit height width block))
    else if ← misfits height width stride then
      .error (.config (.cumulativeStrideMisfit height width stride))
    else match (Count.checked (block * block)).bind fun area => Count.checked (area * channels) with
      | none => .error (.config (.inputChannels channels block))
      | some _ => .ok ()

/-- A product of three counts exists on words exactly if it fits one, as long as the last
of them is positive. -/
theorem checked_area_eq_none_iff {block channels : Nat} (positive : 0 < channels) :
    ((Count.checked (block * block)).bind fun area => Count.checked (area * channels)) = none ↔
      Count.limit ≤ block * block * channels := by
  rw [Option.bind_eq_none_iff]
  simp only [Count.checked_eq_some_iff, Count.checked_eq_none_iff]
  apply Iff.intro
  · intro fails
    by_contra fits
    have area : block * block < Count.limit :=
      Nat.lt_of_le_of_lt (Nat.le_mul_of_pos_right _ positive) (Nat.lt_of_not_le fits)
    exact fits (fails _ ⟨area, rfl⟩)
  · intro large area exists_area
    rcases exists_area with ⟨-, rfl⟩
    exact large

/-- Where both divisors are positive, the checks on words are those on naturals. -/
theorem checkOnWords_eq {geometry : Geometry} (block_pos : 0 < geometry.initialBlock)
    (stride_pos : 0 < geometry.cumulativeStride) :
    geometry.checkOnWords = match geometry.fault? with
      | some fault => .error (.config fault)
      | none => .ok () := by
  obtain ⟨⟨channels, height, width⟩, block, stride⟩ := geometry
  unfold checkOnWords fault?
  dsimp only at block_pos stride_pos ⊢
  rw [misfits_eq block_pos, misfits_eq stride_pos]
  by_cases empty : channels = 0 ∨ height = 0 ∨ width = 0
  · rw [if_pos empty, if_pos empty]
  rw [if_neg empty, if_neg empty]
  by_cases blocked : height % block ≠ 0 ∨ width % block ≠ 0
  · simp [blocked, bind, Except.bind]
  by_cases strided : height % stride ≠ 0 ∨ width % stride ≠ 0
  · simp [blocked, strided, bind, Except.bind]
  have area : ((Count.checked (block * block)).bind fun area => Count.checked (area * channels)) =
      none ↔ Count.limit ≤ block * block * channels := checked_area_eq_none_iff (by omega)
  by_cases wide : Count.limit ≤ block * block * channels
  · simp [blocked, strided, wide, area.mpr wide, bind, Except.bind]
  · obtain ⟨value, fits⟩ := Option.ne_none_iff_exists'.mp (mt area.mp wide)
    simp [blocked, strided, wide, fits, bind, Except.bind]

/-- The geometry of stage strides, computed on words. -/
def ofStridesOnWords (input : SampleShape) (initialBlock : Nat) (strides : List Nat) :
    Except Fault Geometry :=
  let block := max initialBlock 1
  let downsamplings := strides.count 2
  match (Count.checkedPower 2 downsamplings).bind fun factor => Count.checked (factor * block) with
  | none => .error (.config (.cumulativeStride downsamplings block))
  | some cumulativeStride => do
      let geometry : Geometry := ⟨input, block, cumulativeStride⟩
      geometry.checkOnWords
      return geometry

/-- No division by zero is met on the way to a geometry, and no product is taken that has
no value without being found out. -/
theorem ofStridesOnWords_eq (input : SampleShape) (initialBlock : Nat) (strides : List Nat) :
    ofStridesOnWords input initialBlock strides = ofStrides input initialBlock strides := by
  unfold ofStridesOnWords ofStrides
  dsimp only
  cases stride : (Count.checkedPower 2 (strides.count 2)).bind fun factor =>
      Count.checked (factor * max initialBlock 1) with
  | none => rfl
  | some total =>
      have block_pos : 0 < max initialBlock 1 := Nat.le_max_right initialBlock 1
      obtain ⟨-, rfl⟩ := (checkedStride_eq_some_iff block_pos).mp stride
      have stride_pos : 0 < max initialBlock 1 * 2 ^ strides.count 2 :=
        Nat.mul_pos block_pos (Nat.pow_pos Nat.two_pos)
      dsimp only
      rw [← planned, checkOnWords_eq block_pos stride_pos]
      cases (planned input initialBlock strides).fault? with
      | none => rfl
      | some fault => rfl

/-- Exactly the samples with no empty axis, with a size that the initial block and the
downsampling stages divide, and with channels that fit a word behind the entrance have a
geometry, and everything else is a fault of the configuration. The computation never
breaks off, neither on the way to a geometry nor in what is read off it. -/
theorem ofStrides_exact (input : SampleShape) (initialBlock : Nat) (strides : List Nat) :
    ((∃ geometry, ofStrides input initialBlock strides = .ok geometry) ↔
        (1 ≤ input.channels ∧ 1 ≤ input.height ∧ 1 ≤ input.width) ∧
          max initialBlock 1 * 2 ^ strides.count 2 < 2 ^ 64 ∧
          max initialBlock 1 * 2 ^ strides.count 2 ∣ input.height ∧
          max initialBlock 1 * 2 ^ strides.count 2 ∣ input.width ∧
          input.channels * max initialBlock 1 ^ 2 < 2 ^ 64) ∧
      (∀ fault, ofStrides input initialBlock strides = .error fault → fault.isConfig = true) ∧
      ofStridesOnWords input initialBlock strides = ofStrides input initialBlock strides ∧
      ∀ geometry, ofStrides input initialBlock strides = .ok geometry →
        geometry.inChannels = .ok (input.channels * max initialBlock 1 ^ 2) ∧
          ∃ height width, geometry.pooledSize = .ok (height, width) ∧
            height = input.height / (max initialBlock 1 * 2 ^ strides.count 2) ∧
            width = input.width / (max initialBlock 1 * 2 ^ strides.count 2) ∧
            1 ≤ height ∧ 1 ≤ width := by
  refine ⟨?_, ofStrides_configOnly _ _ _, ofStridesOnWords_eq _ _ _, ?_⟩
  · simp only [ofStrides_eq_ok_iff, exists_and_left, exists_eq, and_true]
    exact sound_planned_iff
  · intro geometry accepted
    obtain ⟨sound, rfl⟩ := ofStrides_eq_ok_iff.mp accepted
    have positive := sound.cumulativeStride_pos
    exact ⟨sound.inChannels_eq (initialBlock_planned_pos _ _ _), _, _, sound.pooledSize_eq, rfl, rfl,
      Nat.div_pos (Nat.le_of_dvd sound.height sound.stride_dvd_height) positive,
      Nat.div_pos (Nat.le_of_dvd sound.width sound.stride_dvd_width) positive⟩

/-- Two stages that downsample behind a block of three. With as many channels as half of
the words there are, a block of two is too much. -/
theorem ofStrides_exact_threefold :
    (∃ geometry, ofStrides ⟨3, 12, 24⟩ 3 [2, 1, 2] = .ok geometry ∧
        geometry.inChannels = .ok 27 ∧ geometry.pooledSize = .ok (1, 2)) ∧
      ∃ fault, ofStrides ⟨2 ^ 63, 2, 2⟩ 2 [1] = .error fault ∧ fault.isConfig = true := by
  obtain ⟨accepted, -, -, readings⟩ := ofStrides_exact ⟨3, 12, 24⟩ 3 [2, 1, 2]
  obtain ⟨geometry, made⟩ := accepted.mpr (by decide)
  obtain ⟨channels, _, _, size, rfl, rfl, -⟩ := readings geometry made
  have refused : ofStrides ⟨2 ^ 63, 2, 2⟩ 2 [1] = .error (.config (.inputChannels (2 ^ 63) 2)) := by
    decide
  exact ⟨⟨geometry, made, channels, size⟩, _, refused,
    (ofStrides_exact ⟨2 ^ 63, 2, 2⟩ 2 [1]).2.1 _ refused⟩

/-- Height and width in front of the block at a place of a schedule: those of a sample,
divided by the initial block and by the strides of the blocks before. -/
def extentsAt (geometry : Geometry) (specs : List BlockSpec) (place : Nat) : Nat × Nat :=
  let factor := geometry.initialBlock * Schedule.shrinkage (specs.take place)
  (geometry.input.height / factor, geometry.input.width / factor)

end Geometry

/-! ## Geometries beside schedules -/

/-- Behind the last block, height and width are divided by the strides of all blocks. -/
theorem Geometry.extentsAt_last (geometry : Geometry) {specs : List BlockSpec} {last : BlockSpec}
    (ends : specs.getLast? = some last) :
    ((geometry.extentsAt specs (specs.length - 1)).1 / last.stride,
        (geometry.extentsAt specs (specs.length - 1)).2 / last.stride) =
      (geometry.input.height / (geometry.initialBlock * Schedule.shrinkage specs),
        geometry.input.width / (geometry.initialBlock * Schedule.shrinkage specs)) := by
  rw [List.getLast?_eq_getElem?] at ends
  have inside := (List.getElem?_eq_some_iff.mp ends).1
  have all : specs.take (specs.length - 1 + 1) = specs := List.take_of_length_le (by omega)
  have shrunk := Schedule.shrinkage_take_succ ends
  rw [all] at shrunk
  simp only [extentsAt, Nat.div_div_eq_div_mul, shrunk, Nat.mul_assoc]

namespace NetworkConfig

variable {config : NetworkConfig}

/-- A block finds the extents that the geometry gives for its place. -/
theorem extents_entered (config : NetworkConfig) (specs : List BlockSpec) (batch place : Nat) :
    (Schedule.output (specs.take place) (config.planned.entered batch)).height =
        (config.plannedGeometry.extentsAt specs place).1 ∧
      (Schedule.output (specs.take place) (config.planned.entered batch)).width =
        (config.plannedGeometry.extentsAt specs place).2 := by
  obtain ⟨height, width⟩ :=
    Schedule.output_extents (specs.take place) (config.planned.entered batch)
  exact ⟨height.trans (Nat.div_div_eq_div_mul _ _ _), width.trans (Nat.div_div_eq_div_mul _ _ _)⟩

/-- A sample has as many values behind the entrance as in front of it. -/
theorem sampleSize_entered (sound : config.plannedGeometry.Sound) (batch : Nat) :
    (config.planned.entered batch).sampleSize =
      config.input.channels * config.input.height * config.input.width := by
  have block_pos : 0 < config.plannedGeometry.initialBlock := Nat.le_max_right _ _
  have entered : config.planned.entered batch =
      (Psi.mk config.plannedGeometry.initialBlock).gathered (config.input.batched batch) := by
    rw [Psi.gathered, ← Nat.pow_two, Nat.mul_comm]
    rfl
  have divides : (Psi.mk config.plannedGeometry.initialBlock).Divides (config.input.batched batch) :=
    ⟨block_pos, initialBlock_dvd sound⟩
  rw [entered, divides.sampleSize_gathered]
  rfl

/-- In front of every block, the size of a sample has been divided without a remainder,
something is left of it, and the stride of the block divides it further. -/
theorem Schedulable.extents_at (schedulable : config.Schedulable) {place : Nat} {spec : BlockSpec}
    (here : config.specs[place]? = some spec) :
    (config.plannedGeometry.initialBlock * Schedule.shrinkage (config.specs.take place) ∣
          config.input.height ∧
        config.plannedGeometry.initialBlock * Schedule.shrinkage (config.specs.take place) ∣
          config.input.width) ∧
      (1 ≤ (config.plannedGeometry.extentsAt config.specs place).1 ∧
        1 ≤ (config.plannedGeometry.extentsAt config.specs place).2) ∧
      spec.stride ∣ (config.plannedGeometry.extentsAt config.specs place).1 ∧
      spec.stride ∣ (config.plannedGeometry.extentsAt config.specs place).2 := by
  obtain ⟨height_dvd, width_dvd⟩ := initialBlock_dvd schedulable.geometry
  obtain ⟨height, width⟩ := extents_entered config config.specs 1 place
  obtain ⟨takes, tall, wide⟩ := (schedulable.passes Nat.one_pos).takes_at here
  obtain ⟨-, -, height_pos, width_pos⟩ := takes.full
  rw [← height, ← width]
  exact ⟨⟨(Nat.dvd_div_iff_mul_dvd height_dvd).mp tall, (Nat.dvd_div_iff_mul_dvd width_dvd).mp wide⟩,
    ⟨height_pos, width_pos⟩, takes.height, takes.width⟩

/-- The values of the features of a sample are those of the sample and all zeros that the
blocks append. -/
theorem Schedulable.sampleSize_features (schedulable : config.Schedulable) {last : BlockSpec}
    (ends : config.specs.getLast? = some last) :
    2 * last.outChannels * config.planned.pooled.1 * config.planned.pooled.2 =
      config.input.channels * config.input.height * config.input.width +
        (config.specs.mapIdx fun place spec =>
          spec.pad * (config.plannedGeometry.extentsAt config.specs place).1 *
            (config.plannedGeometry.extentsAt config.specs place).2).sum := by
  have size := (schedulable.passes Nat.one_pos).sampleSize_output
  rw [schedulable.output, sampleSize_entered schedulable.geometry] at size
  simp only [extents_entered] at size
  rw [← size]
  simp [Plan.features, SampleShape.batched, planned, ends, Shape.sampleSize]

/-- A geometry and the schedule beside it count the same pixels. The cumulative stride is
that of the initial block and of all blocks, every block finds a size that can be divided
as it has to be, behind the last block stands the size of the features, and these have
the values of a sample and the zeros of all paddings. -/
theorem schedule_accounts {specs : List BlockSpec} (scheduled : config.schedule = .ok specs) :
    ∃ geometry last pooled, config.geometry = .ok geometry ∧ specs.getLast? = some last ∧
      geometry.pooledSize = .ok pooled ∧
      geometry.cumulativeStride = geometry.initialBlock * (specs.map (·.stride)).prod ∧
      (∀ place spec, specs[place]? = some spec →
        (geometry.initialBlock * Schedule.shrinkage (specs.take place) ∣ config.input.height ∧
          geometry.initialBlock * Schedule.shrinkage (specs.take place) ∣ config.input.width) ∧
        (1 ≤ (geometry.extentsAt specs place).1 ∧ 1 ≤ (geometry.extentsAt specs place).2) ∧
        spec.stride ∣ (geometry.extentsAt specs place).1 ∧
        spec.stride ∣ (geometry.extentsAt specs place).2) ∧
      ((geometry.extentsAt specs (specs.length - 1)).1 / last.stride,
          (geometry.extentsAt specs (specs.length - 1)).2 / last.stride) = pooled ∧
      2 * last.outChannels * pooled.1 * pooled.2 =
        config.input.channels * config.input.height * config.input.width +
          (specs.mapIdx fun place spec => spec.pad * (geometry.extentsAt specs place).1 *
            (geometry.extentsAt specs place).2).sum := by
  obtain ⟨schedulable, rfl⟩ := scheduled_iff.mp scheduled
  have sound := schedulable.geometry
  have ends := List.getLast?_eq_some_getLast (specs_ne_nil schedulable.stages)
  have stride : config.plannedGeometry.cumulativeStride =
      config.plannedGeometry.initialBlock * Schedule.shrinkage config.specs :=
    congrArg (config.plannedGeometry.initialBlock * ·) schedulable.shrinkage.symm
  refine ⟨_, _, _, geometry_eq sound, ends, sound.pooledSize_eq, stride,
    fun place spec here => schedulable.extents_at here, ?_, schedulable.sampleSize_features ends⟩
  rw [stride]
  exact config.plannedGeometry.extentsAt_last ends

/-- The first block of the small configuration appends a channel of four zeros to the
twelve values of a sample. -/
theorem schedule_accounts_small :
    small.schedule = .ok small.specs ∧ ∃ geometry last pooled,
      small.geometry = .ok geometry ∧ small.specs.getLast? = some last ∧
        geometry.pooledSize = .ok pooled ∧ geometry.cumulativeStride = 2 ∧
        2 * last.outChannels * pooled.1 * pooled.2 = 3 * 2 * 2 + 4 := by
  have scheduled : small.schedule = .ok small.specs := by decide
  obtain ⟨geometry, last, pooled, accepted, ends, size, stride, -, -, values⟩ :=
    schedule_accounts scheduled
  have sound := (scheduled_iff.mp scheduled).1.geometry
  cases (geometry_eq_ok_iff.mp accepted).2
  exact ⟨scheduled, _, last, pooled, accepted, ends, size, stride, values⟩

end NetworkConfig

end InvertibleNet
