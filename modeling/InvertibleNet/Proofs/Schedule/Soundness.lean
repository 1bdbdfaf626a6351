/-
# What a valid block satisfies

The checks of a block are tests on words, with saturation and overflow. Where
twice the output channels fit a word, which every stage guarantees, they
come down to plain arithmetic, and what they accept is exactly a block whose two
directions can be run: the padded input has two equal halves, and the
rearrangement gives a half the width that the residual map puts out.
-/

import InvertibleNet.Schedule

namespace InvertibleNet

/-- Whether a stage of this width and stride can follow the given number of
channels: they may only grow, and a stride of two multiplies them by itself. -/
def Schedule.StageFits (inChannels width stride : Nat) : Prop :=
  (stride = 1 ∧ inChannels ≤ 2 * width) ∨
    (stride = 2 ∧ inChannels % 2 = 0 ∧ width = 2 * inChannels)

/-- A block that can be run in both directions. -/
structure BlockSpec.Sound (spec : BlockSpec) : Prop where
  /-- There are channels for two halves. -/
  pair : 2 ≤ spec.inChannels
  stride : spec.stride = 1 ∨ spec.stride = 2
  /-- The padded input is cut into equal halves. -/
  halves : spec.inChannels + spec.pad = 2 * spec.halfChannels
  /-- The rearrangement of a half is as wide as its residual. -/
  area : spec.stride * spec.stride * spec.halfChannels = spec.outChannels

namespace BlockSpec

theorem bottleneckWidth_pos_iff {spec : BlockSpec} {multiplier : Nat} (positive : 0 < multiplier) :
    spec.bottleneckWidth multiplier ≠ 0 ↔ multiplier ≤ spec.outChannels := by
  unfold bottleneckWidth
  rw [if_neg (Nat.ne_of_gt positive), Nat.ne_zero_iff_zero_lt, Nat.div_pos_iff]
  omega

theorem pad_of_stride_one {spec : BlockSpec} (room : 2 * spec.outChannels < Count.limit)
    (stride : spec.stride = 1) : spec.pad = 2 * spec.outChannels - spec.inChannels := by
  have fits : Count.saturate (2 * spec.outChannels) = 2 * spec.outChannels :=
    Nat.min_eq_left (by omega)
  rw [pad, if_pos stride, fits]

theorem pad_of_stride_two {spec : BlockSpec} (stride : spec.stride = 2) : spec.pad = 0 := by
  rw [pad, if_neg (by omega)]

/-- A block pads exactly if it keeps the size of an image and widens its channels. -/
theorem isInjective_iff {spec : BlockSpec} (room : 2 * spec.outChannels < Count.limit) :
    spec.isInjective = true ↔ spec.stride = 1 ∧ spec.inChannels < 2 * spec.outChannels := by
  rw [isInjective, decide_eq_true_iff]
  by_cases one : spec.stride = 1
  · rw [pad_of_stride_one room one, Nat.sub_pos_iff_lt]
    exact (and_iff_right one).symm
  · simp [pad, one]

/-- The checks of a block whose stage is not too wide, as plain arithmetic. -/
theorem fault?_eq_none_iff {spec : BlockSpec} {multiplier : Nat}
    (room : 2 * spec.outChannels < Count.limit) :
    spec.fault? multiplier = none ↔
      2 ≤ spec.inChannels ∧ 1 ≤ multiplier ∧ multiplier ≤ spec.outChannels ∧
        Schedule.StageFits spec.inChannels spec.outChannels spec.stride := by
  have fits : Count.saturate (2 * spec.outChannels) = 2 * spec.outChannels :=
    Nat.min_eq_left (by omega)
  unfold fault? Schedule.StageFits
  by_cases empty : spec.inChannels = 0 ∨ spec.outChannels = 0
  · rw [if_pos empty]
    simp only [reduceCtorEq, false_iff]
    omega
  rw [if_neg empty]
  by_cases narrow : spec.inChannels < 2
  · have refused : ¬ 2 ≤ spec.inChannels := by omega
    simp [narrow, refused]
  by_cases zero : multiplier = 0
  · simp [zero, narrow]
  by_cases thin : spec.bottleneckWidth multiplier = 0
  · have refused : ¬ multiplier ≤ spec.outChannels := fun wide =>
      (bottleneckWidth_pos_iff (Nat.pos_of_ne_zero zero)).mpr wide thin
    simp [zero, narrow, thin, refused]
  have wide := (bottleneckWidth_pos_iff (Nat.pos_of_ne_zero zero)).mp thin
  rw [if_neg narrow, if_neg zero, if_neg thin, fits]
  by_cases one : spec.stride = 1
  · rw [if_pos one]
    by_cases shrinking : 2 * spec.outChannels < spec.inChannels
    · have refused : ¬ spec.inChannels ≤ 2 * spec.outChannels := by omega
      simp [shrinking, one, refused]
    · -- Without padding the input is twice the output, so it is even.
      have halved : ¬ (spec.isInjective = false ∧ spec.inChannels % 2 ≠ 0) := by
        simp only [isInjective, pad_of_stride_one room one, decide_eq_false_iff_not]
        omega
      rw [if_neg shrinking, if_neg halved]
      simp only [true_iff]
      omega
  · rw [if_neg one]
    by_cases two : spec.stride = 2
    · rw [if_pos two]
      by_cases odd : spec.inChannels % 2 ≠ 0
      · rw [if_pos odd]
        simp only [reduceCtorEq, false_iff]
        omega
      · rw [if_neg odd, ite_eq_right_iff]
        simp only [reduceCtorEq, imp_false, Decidable.not_not, Count.checked_eq_some_iff]
        omega
    · simp [one, two]

/-- A block of stride two that doubles an even number of channels can be run in both
directions, however wide it is. -/
theorem sound_of_stride_two {spec : BlockSpec} (pair : 2 ≤ spec.inChannels)
    (two : spec.stride = 2) (even : spec.inChannels % 2 = 0)
    (doubled : spec.outChannels = 2 * spec.inChannels) : spec.Sound := by
  have padded := pad_of_stride_two two
  refine ⟨pair, .inr two, ?_, ?_⟩
  · rw [halfChannels, padded]
    omega
  · rw [halfChannels, padded, two]
    omega

/-- Every block that passes its checks can be run in both directions. -/
theorem sound_of_fault?_eq_none {spec : BlockSpec} {multiplier : Nat}
    (room : 2 * spec.outChannels < Count.limit) (valid : spec.fault? multiplier = none) :
    spec.Sound := by
  obtain ⟨pair, -, -, fits⟩ := (fault?_eq_none_iff room).mp valid
  obtain ⟨one, growing⟩ | ⟨two, even, doubled⟩ := fits
  · have padded := pad_of_stride_one room one
    refine ⟨pair, .inl one, ?_, ?_⟩
    · rw [halfChannels, padded]
      omega
    · rw [halfChannels, padded, one]
      omega
  · exact sound_of_stride_two pair two even doubled

end BlockSpec

end InvertibleNet
