/-
# Geometries and default widths

The two computations of a configuration that can run past a word before any
block is looked at. Where they have a result it is the one that naturals would
give, and they have one exactly if that fits.
-/

import Mathlib.Algebra.Group.Nat.Defs
import InvertibleNet.Proofs.Outcome
import InvertibleNet.Geometry
import InvertibleNet.Schedule

namespace InvertibleNet

open Outcome

/-! ## Powers -/

/-- No power of two with an exponent above the bits of a word fits one. -/
theorem Count.limit_le_pow {base exponent : Nat} (large : 2 ≤ base) (beyond : 64 ≤ exponent) :
    limit ≤ base ^ exponent :=
  calc limit = 2 ^ 64 := by rfl
    _ ≤ 2 ^ exponent := Nat.pow_le_pow_right Nat.two_pos beyond
    _ ≤ base ^ exponent := Nat.pow_le_pow_left large exponent

theorem Count.checkedPower_eq_some_iff {base exponent result : Nat} (large : 2 ≤ base) :
    checkedPower base exponent = some result ↔ base ^ exponent < limit ∧ base ^ exponent = result := by
  unfold checkedPower
  by_cases short : exponent ≤ 64
  · rw [if_pos (by omega), if_pos short]
    exact checked_eq_some_iff
  · rw [if_neg short, ite_self]
    simp only [reduceCtorEq, false_iff]
    intro both
    rcases both with ⟨fits, -⟩
    exact Nat.not_lt.mpr (limit_le_pow large (by omega)) fits

/-- What is computed from a power has a value only if the power fits. -/
theorem Count.checkedPower_bind_eq_some_iff {base exponent result : Nat} {next : Nat → Option Nat}
    (large : 2 ≤ base) :
    (checkedPower base exponent).bind next = some result ↔
      base ^ exponent < limit ∧ next (base ^ exponent) = some result := by
  rw [Option.bind_eq_some_iff]
  apply Iff.intro
  · intro computed
    rcases computed with ⟨power, raised, rest⟩
    obtain ⟨fits, rfl⟩ := (checkedPower_eq_some_iff large).mp raised
    exact ⟨fits, rest⟩
  · intro both
    rcases both with ⟨fits, rest⟩
    exact ⟨_, (checkedPower_eq_some_iff large).mpr ⟨fits, rfl⟩, rest⟩

/-! ## Geometries -/

namespace Geometry

/-- The geometry that stage strides lead to, in naturals. -/
def planned (input : SampleShape) (initialBlock : Nat) (strides : List Nat) : Geometry :=
  ⟨input, max initialBlock 1, max initialBlock 1 * 2 ^ strides.count 2⟩

/-- A geometry that samples can pass through. -/
structure Sound (geometry : Geometry) : Prop where
  channels : 1 ≤ geometry.input.channels
  height : 1 ≤ geometry.input.height
  width : 1 ≤ geometry.input.width
  stride : geometry.cumulativeStride < Count.limit
  stride_dvd_height : geometry.cumulativeStride ∣ geometry.input.height
  stride_dvd_width : geometry.cumulativeStride ∣ geometry.input.width
  word : geometry.input.channels * geometry.initialBlock ^ 2 < Count.limit

variable {geometry : Geometry}

theorem initialBlock_planned_pos (input : SampleShape) (initialBlock : Nat) (strides : List Nat) :
    0 < (planned input initialBlock strides).initialBlock :=
  Nat.le_max_right initialBlock 1

theorem initialBlock_dvd_planned (input : SampleShape) (initialBlock : Nat) (strides : List Nat) :
    (planned input initialBlock strides).initialBlock ∣
      (planned input initialBlock strides).cumulativeStride :=
  Nat.dvd_mul_right _ _

theorem sound_planned_iff {input : SampleShape} {initialBlock : Nat} {strides : List Nat} :
    (planned input initialBlock strides).Sound ↔
      (1 ≤ input.channels ∧ 1 ≤ input.height ∧ 1 ≤ input.width) ∧
        max initialBlock 1 * 2 ^ strides.count 2 < 2 ^ 64 ∧
        max initialBlock 1 * 2 ^ strides.count 2 ∣ input.height ∧
        max initialBlock 1 * 2 ^ strides.count 2 ∣ input.width ∧
        input.channels * max initialBlock 1 ^ 2 < 2 ^ 64 := by
  apply Iff.intro
  · intro sound
    rcases sound with ⟨channels, height, width, stride, tall, wide, word⟩
    exact ⟨⟨channels, height, width⟩, stride, tall, wide, word⟩
  · intro conditions
    rcases conditions with ⟨⟨channels, height, width⟩, stride, tall, wide, word⟩
    exact ⟨channels, height, width, stride, tall, wide, word⟩

/-- The checks of a geometry whose total stride is a multiple of its block. -/
theorem fault?_eq_none_iff (divides : geometry.initialBlock ∣ geometry.cumulativeStride)
    (fits : geometry.cumulativeStride < Count.limit) :
    geometry.fault? = none ↔ geometry.Sound := by
  obtain ⟨⟨channels, height, width⟩, block, stride⟩ := geometry
  have word : channels * block ^ 2 = block * block * channels := by
    rw [Nat.pow_two, Nat.mul_comm]
  unfold fault?
  dsimp only at divides fits ⊢
  by_cases empty : channels = 0 ∨ height = 0 ∨ width = 0
  · rw [if_pos empty]
    simp only [reduceCtorEq, false_iff]
    intro sound
    obtain ⟨channels_pos, height_pos, width_pos, -⟩ := sound
    simp only at channels_pos height_pos width_pos
    omega
  rw [if_neg empty]
  by_cases blocked : height % block ≠ 0 ∨ width % block ≠ 0
  · rw [if_pos blocked]
    simp only [reduceCtorEq, false_iff]
    intro sound
    rcases blocked with tall | wide
    · exact tall (Nat.mod_eq_zero_of_dvd (Nat.dvd_trans divides sound.stride_dvd_height))
    · exact wide (Nat.mod_eq_zero_of_dvd (Nat.dvd_trans divides sound.stride_dvd_width))
  rw [if_neg blocked]
  by_cases strided : height % stride ≠ 0 ∨ width % stride ≠ 0
  · rw [if_pos strided]
    simp only [reduceCtorEq, false_iff]
    intro sound
    rcases strided with tall | wide
    · exact tall (Nat.mod_eq_zero_of_dvd sound.stride_dvd_height)
    · exact wide (Nat.mod_eq_zero_of_dvd sound.stride_dvd_width)
  rw [if_neg strided, ← word]
  rw [not_or, Decidable.not_not, Decidable.not_not] at strided
  apply Iff.intro
  · intro accepted
    have small : ¬ Count.limit ≤ channels * block ^ 2 := fun large => by simp [large] at accepted
    exact ⟨by simp only; omega, by simp only; omega, by simp only; omega, fits,
      Nat.dvd_of_mod_eq_zero strided.1, Nat.dvd_of_mod_eq_zero strided.2, Nat.lt_of_not_le small⟩
  · intro sound
    exact if_neg (Nat.not_le.mpr sound.word)

/-- A total stride has a value on words exactly if it fits one. -/
theorem checkedStride_eq_some_iff {downsamplings block total : Nat} (positive : 0 < block) :
    ((Count.checkedPower 2 downsamplings).bind fun factor => Count.checked (factor * block)) =
        some total ↔ block * 2 ^ downsamplings < Count.limit ∧ block * 2 ^ downsamplings = total := by
  rw [Count.checkedPower_bind_eq_some_iff (Nat.le_refl 2), Count.checked_eq_some_iff,
    Nat.mul_comm block]
  apply Iff.intro
  · intro made
    rcases made with ⟨-, fits, rfl⟩
    exact ⟨fits, rfl⟩
  · intro made
    rcases made with ⟨fits, rfl⟩
    exact ⟨Nat.lt_of_le_of_lt (Nat.le_mul_of_pos_right _ positive) fits, fits, rfl⟩

/-- When a geometry is accepted, and which. -/
theorem ofStrides_eq_ok_iff {input : SampleShape} {initialBlock : Nat} {strides : List Nat} :
    ofStrides input initialBlock strides = .ok geometry ↔
      (planned input initialBlock strides).Sound ∧
        geometry = planned input initialBlock strides := by
  have divides := initialBlock_dvd_planned input initialBlock strides
  have positive : 0 < max initialBlock 1 := Nat.le_max_right initialBlock 1
  unfold ofStrides
  dsimp only
  cases stride : (Count.checkedPower 2 (strides.count 2)).bind fun factor =>
      Count.checked (factor * max initialBlock 1) with
  | none =>
      simp only [reduceCtorEq, false_iff, not_and]
      intro sound
      have value := (checkedStride_eq_some_iff positive).mpr ⟨sound.stride, rfl⟩
      exact absurd (stride.symm.trans value) (by simp)
  | some total =>
      obtain ⟨fits, rfl⟩ := (checkedStride_eq_some_iff positive).mp stride
      have checks := fault?_eq_none_iff divides fits
      dsimp only
      rw [← planned]
      cases fault : (planned input initialBlock strides).fault? with
      | some cause =>
          simp only [reduceCtorEq, false_iff, not_and]
          intro sound
          rw [checks.mpr sound] at fault
          cases fault
      | none =>
          simp only [Except.ok.injEq, checks.mp fault, true_and]
          exact eq_comm

theorem ofStrides_configOnly (input : SampleShape) (initialBlock : Nat) (strides : List Nat) :
    ConfigOnly (ofStrides input initialBlock strides) := by
  unfold ofStrides
  dsimp only
  split
  · exact ConfigOnly.config _
  · split
    · exact ConfigOnly.config _
    · exact ConfigOnly.ok _

/-- The channels behind the entrance are those of a sample, times the area of the
block. -/
theorem Sound.inChannels_eq (sound : geometry.Sound) (positive : 0 < geometry.initialBlock) :
    geometry.inChannels = .ok (geometry.input.channels * geometry.initialBlock ^ 2) := by
  have word := sound.word
  rw [Nat.pow_two, ← Nat.mul_assoc] at word
  have row : geometry.input.channels * geometry.initialBlock < Count.limit :=
    Nat.lt_of_le_of_lt (Nat.le_mul_of_pos_right _ positive) word
  have single : geometry.input.channels < Count.limit :=
    Nat.lt_of_le_of_lt (Nat.le_mul_of_pos_right _ positive) row
  rw [Nat.pow_two, ← Nat.mul_assoc]
  simp only [inChannels, Count.checkedProduct, List.foldlM_cons, List.foldlM_nil, Nat.one_mul,
    Count.checked, if_pos single, if_pos row, if_pos word, Option.pure_def, Option.bind_eq_bind,
    Option.bind_some]

theorem Sound.cumulativeStride_pos (sound : geometry.Sound) : 0 < geometry.cumulativeStride :=
  Nat.pos_of_dvd_of_pos sound.stride_dvd_height sound.height

theorem Sound.pooledSize_eq (sound : geometry.Sound) :
    geometry.pooledSize = .ok (geometry.input.height / geometry.cumulativeStride,
      geometry.input.width / geometry.cumulativeStride) :=
  if_neg (Nat.ne_of_gt sound.cumulativeStride_pos)

end Geometry

/-! ## Default widths -/

namespace Schedule

/-- The default widths from one stage on, in naturals. -/
def plannedWidths (inChannels stage count : Nat) : List Nat :=
  (List.range' stage count).map fun index => inChannels / 2 * 4 ^ index

theorem defaultWidth_eq_ok_iff {inChannels stage width : Nat} :
    defaultWidth inChannels stage = .ok width ↔
      4 ^ stage < Count.limit ∧ inChannels / 2 * 4 ^ stage < Count.limit ∧
        inChannels / 2 * 4 ^ stage = width := by
  have grown : ((Count.checkedPower 4 stage).bind fun growth =>
      Count.checked (inChannels / 2 * growth)) = some width ↔
        4 ^ stage < Count.limit ∧ inChannels / 2 * 4 ^ stage < Count.limit ∧
          inChannels / 2 * 4 ^ stage = width :=
    (Count.checkedPower_bind_eq_some_iff (by decide)).trans
      (and_congr_right fun _ => Count.checked_eq_some_iff)
  rw [← grown]
  unfold defaultWidth
  cases (Count.checkedPower 4 stage).bind fun growth => Count.checked (inChannels / 2 * growth) with
  | none => simp
  | some value => simp

/-- The default widths exist exactly if each of them, and the power it takes, fits
a word. -/
theorem defaultWidths_eq_ok_iff {inChannels stage count : Nat} {widths : List Nat} :
    defaultWidths inChannels stage count = .ok widths ↔
      (∀ index ∈ List.range' stage count,
        4 ^ index < Count.limit ∧ inChannels / 2 * 4 ^ index < Count.limit) ∧
        widths = plannedWidths inChannels stage count := by
  induction count generalizing stage widths with
  | zero =>
      simp only [defaultWidths, plannedWidths, List.range'_zero, List.map_nil, List.not_mem_nil,
        false_imp_iff, implies_true, true_and, Except.ok.injEq]
      exact eq_comm
  | succ count ih =>
      rw [defaultWidths, bind_eq_ok_iff, plannedWidths, List.range'_succ, List.map_cons,
        List.forall_mem_cons, ← plannedWidths]
      apply Iff.intro
      · intro computed
        rcases computed with ⟨width, first, later⟩
        obtain ⟨power, fits, rfl⟩ := defaultWidth_eq_ok_iff.mp first
        obtain ⟨rest, found, made⟩ := bind_eq_ok_iff.mp later
        obtain ⟨all, rfl⟩ := ih.mp found
        cases made
        exact ⟨⟨⟨power, fits⟩, all⟩, rfl⟩
      · intro planned
        rcases planned with ⟨⟨⟨power, fits⟩, all⟩, rfl⟩
        exact ⟨_, defaultWidth_eq_ok_iff.mpr ⟨power, fits, rfl⟩,
          bind_eq_ok_iff.mpr ⟨_, ih.mpr ⟨all, rfl⟩, rfl⟩⟩

/-- Positive default widths that fit a word all exist. -/
theorem defaultWidths_of_fits {inChannels stage count : Nat}
    (fits : ∀ width ∈ plannedWidths inChannels stage count, 1 ≤ width ∧ width < Count.limit) :
    defaultWidths inChannels stage count = .ok (plannedWidths inChannels stage count) := by
  refine defaultWidths_eq_ok_iff.mpr ⟨fun index member => ?_, rfl⟩
  obtain ⟨positive, below⟩ := fits _ (List.mem_map_of_mem member)
  exact ⟨Nat.lt_of_le_of_lt (Nat.le_mul_of_pos_left _ (Nat.pos_of_mul_pos_right positive)) below,
    below⟩

theorem defaultWidths_configOnly (inChannels stage count : Nat) :
    ConfigOnly (defaultWidths inChannels stage count) := by
  induction count generalizing stage with
  | zero => exact ConfigOnly.ok _
  | succ count ih =>
      refine ConfigOnly.bind ?_ fun _ _ => ConfigOnly.bind (ih _) fun _ _ => ConfigOnly.ok _
      unfold defaultWidth
      split
      · exact ConfigOnly.ok _
      · exact ConfigOnly.config _

end Schedule

end InvertibleNet
