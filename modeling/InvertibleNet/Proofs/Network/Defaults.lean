/-
# Default widths

A configuration that lists no widths is given half of the channels behind its entrance,
and four times as many at each further stage. These widths leave little to check. A
stride of two is met by every stage but the first, where it would ask for four times
the width, and the largest width is that of the last stage. What remains is that the
channels behind the entrance are even, that the divisor is no larger than half of them,
and that the width after the last one fits a word. Every later stage then widens its
input fourfold: one of stride two by the rearrangement, one of stride one by padding.
-/

import InvertibleNet.Proofs.Network.Acceptance

namespace InvertibleNet

namespace Schedule

variable {entering stage count : Nat}

theorem length_plannedWidths (entering count : Nat) :
    (plannedWidths entering 0 count).length = count := by
  simp [plannedWidths]

/-- The default width of a stage. -/
theorem getElem?_plannedWidths (inside : stage < count) :
    (plannedWidths entering 0 count)[stage]? = some (entering / 2 * 4 ^ stage) := by
  simp [plannedWidths, inside]

theorem getD_plannedWidths (inside : stage < count) :
    (plannedWidths entering 0 count).getD stage 0 = entering / 2 * 4 ^ stage := by
  rw [List.getD_eq_getElem?_getD, getElem?_plannedWidths inside]
  rfl

theorem forall_mem_plannedWidths {holds : Nat → Prop} :
    (∀ width ∈ plannedWidths entering 0 count, holds width) ↔
      ∀ stage < count, holds (entering / 2 * 4 ^ stage) := by
  simp [plannedWidths]

/-- Four times as many channels as a stage has are those of the next. -/
theorem four_mul_width (entering stage : Nat) :
    4 * (entering / 2 * 4 ^ stage) = entering / 2 * 4 ^ (stage + 1) := by
  rw [Nat.pow_succ]
  ac_rfl

theorem width_le_width {first second : Nat} (before : first ≤ second) :
    entering / 2 * 4 ^ first ≤ entering / 2 * 4 ^ second :=
  Nat.mul_le_mul_left _ (Nat.pow_le_pow_right (by decide) before)

/-- All default widths fit if the first one is positive and the one after the last still
fits a word. -/
theorem plannedWidths_fit_iff (some_stage : 1 ≤ count) :
    (∀ width ∈ plannedWidths entering 0 count, 1 ≤ width ∧ 4 * width < 2 ^ 64) ↔
      1 ≤ entering / 2 ∧ entering / 2 * 4 ^ count < 2 ^ 64 := by
  rw [forall_mem_plannedWidths]
  apply Iff.intro
  · intro fit
    obtain ⟨first, -⟩ := fit 0 some_stage
    obtain ⟨-, last⟩ := fit (count - 1) (Nat.sub_lt some_stage Nat.one_pos)
    rw [four_mul_width, Nat.sub_add_cancel some_stage] at last
    exact ⟨by simpa using first, last⟩
  · intro ends
    rcases ends with ⟨first, last⟩
    intro stage inside
    rw [four_mul_width]
    exact ⟨Nat.mul_pos first (Nat.pow_pos (by decide)),
      Nat.lt_of_le_of_lt (width_le_width inside) last⟩

/-- The divisor is no larger than any default width if it is no larger than the first. -/
theorem le_plannedWidths_iff {multiplier : Nat} (some_stage : 1 ≤ count) :
    (∀ width ∈ plannedWidths entering 0 count, multiplier ≤ width) ↔ multiplier ≤ entering / 2 := by
  rw [forall_mem_plannedWidths]
  apply Iff.intro
  · intro bounded
    simpa using bounded 0 some_stage
  · intro bound stage _
    exact Nat.le_trans bound (Nat.le_mul_of_pos_right _ (Nat.pow_pos (by decide)))

/-- Stages of default width follow each other, of whichever stride they are. -/
theorem isChain_plannedWidths {strides : List Nat} (entering : Nat)
    (supported : ∀ stride ∈ strides, stride = 1 ∨ stride = 2) :
    ((plannedWidths entering 0 strides.length).zip strides).IsChain Follows := by
  rw [isChain_follows_iff (length_plannedWidths entering _)]
  intro stage inside
  rw [getD_plannedWidths (Nat.lt_of_succ_lt inside), getD_plannedWidths inside,
    List.getD_eq_getElem _ _ inside]
  rcases supported _ (List.getElem_mem inside) with one | two
  · exact .inl ⟨one, width_le_width (Nat.le_succ stage)⟩
  · exact .inr ⟨two, (four_mul_width entering stage).symm⟩

/-- The first stage fits the entrance if it halves an even number of channels. A stride of
two would have to multiply what the default divides. -/
theorem stageFits_half_iff {stride : Nat} (positive : 1 ≤ entering / 2) :
    StageFits entering (entering / 2) stride ↔ stride = 1 ∧ 2 ∣ entering := by
  unfold StageFits
  omega

section

variable {blocks strides : List Nat} {multiplier : Nat}

theorem listed_plannedWidths_iff (lengths : blocks.length = strides.length)
    (some_stage : 1 ≤ blocks.length) (depths : ∀ depth ∈ blocks, 1 ≤ depth)
    (supported : ∀ stride ∈ strides, stride = 1 ∨ stride = 2) :
    Listed (plannedWidths entering 0 blocks.length) blocks strides ↔
      1 ≤ entering / 2 ∧ entering / 2 * 4 ^ blocks.length < 2 ^ 64 := by
  rw [← plannedWidths_fit_iff some_stage]
  apply Iff.intro
  · exact Listed.widths
  · intro fit
    exact ⟨⟨length_plannedWidths _ _, lengths, some_stage⟩, depths, fit, supported⟩

/-- The blocks of default width pass their checks exactly if the first stage does. -/
theorem blocks_plannedWidths_iff
    (listed : Listed (plannedWidths entering 0 blocks.length) blocks strides) :
    (∀ spec ∈ chain 0 entering ((flattenedChannels (plannedWidths entering 0 blocks.length)
        blocks).zip (flattenedStrides blocks strides)), spec.fault? multiplier = none) ↔
      (1 ≤ multiplier ∧ multiplier ≤ entering / 2) ∧ strides.head? = some 1 ∧ 2 ∣ entering := by
  obtain ⟨-, lengths, some_stage⟩ := listed.lengths
  have chained : ((plannedWidths entering 0 blocks.length).zip strides).IsChain Follows := by
    rw [lengths]
    exact isChain_plannedWidths entering listed.strides
  have first : (plannedWidths entering 0 blocks.length).getD 0 0 = entering / 2 :=
    (getD_plannedWidths some_stage).trans (Nat.mul_one _)
  have head : strides.getD 0 0 = 1 ↔ strides.head? = some 1 := by
    cases strides with
    | nil => simp
    | cons stride strides => simp
  have positive : 1 ≤ entering / 2 := ((plannedWidths_fit_iff some_stage).mp listed.widths).1
  rw [blocks_valid_iff (listed_iff.mp listed), le_plannedWidths_iff some_stage, first,
    stageFits_half_iff positive, head, and_iff_left chained]
  apply and_iff_right
  omega

/-- The block at a place of a schedule of default widths pads if it is the first one of a
stage, other than the first, that does not downsample. -/
theorem isInjective_plannedWidths {stage depth stride block : Nat} {spec : BlockSpec}
    (listed : Listed (plannedWidths entering 0 blocks.length) blocks strides)
    (even : 2 ∣ entering) (deep : blocks[stage]? = some depth)
    (strode : strides[stage]? = some stride) (inside : block < depth)
    (here : (chain 0 entering ((flattenedChannels (plannedWidths entering 0 blocks.length)
      blocks).zip (flattenedStrides blocks strides)))[place blocks stage block]? = some spec) :
    spec.isInjective = true ↔ stage ≠ 0 ∧ block = 0 ∧ stride = 1 := by
  have some_stage := (List.getElem?_eq_some_iff.mp deep).1
  have wide : (plannedWidths entering 0 blocks.length)[stage]? = _ :=
    getElem?_plannedWidths some_stage
  have room := listed.room (List.mem_of_getElem? wide)
  rw [getElem?_chain, getElem?_zip_flattened deep wide strode inside] at here
  cases here
  rw [BlockSpec.isInjective_iff room]
  dsimp only
  cases block with
  | succ before =>
      -- A later block of a stage keeps the width of its stage.
      rw [entering_repeated deep wide strode (Nat.lt_of_succ_lt inside)]
      simp
  | zero =>
      cases stage with
      | zero =>
          -- The first block finds twice the width that was made by halving.
          rw [place_zero]
          simp only [Schedule.entering, Nat.pow_zero, Nat.mul_one]
          omega
      | succ before =>
          -- The first block of a later stage finds twice the width of the stage before it.
          have wide_before : (plannedWidths entering 0 blocks.length)[before]? = _ :=
            getElem?_plannedWidths (Nat.lt_of_succ_lt some_stage)
          have positive := (listed.widths _ (List.mem_of_getElem? wide_before)).1
          rw [entering_first listed some_stage wide_before, ← four_mul_width]
          simp only [if_true, ne_eq, Nat.add_eq_zero_iff, Nat.one_ne_zero, and_false,
            not_false_eq_true, true_and]
          apply and_iff_left
          omega

end

end Schedule

namespace NetworkConfig

open Outcome Schedule

variable {config : NetworkConfig}

theorem widths_of_unlisted (unlisted : config.channels = none) :
    config.widths = plannedWidths config.enteringChannels 0 config.blocks.length := by
  unfold NetworkConfig.widths
  rw [unlisted]

/-- A schedule of default widths, taken apart. -/
theorem schedulable_of_unlisted_iff (unlisted : config.channels = none)
    (sound : config.plannedGeometry.Sound) :
    config.Schedulable ↔
      Listed (plannedWidths config.enteringChannels 0 config.blocks.length) config.blocks
          config.strides ∧
        ∀ spec ∈ chain 0 config.enteringChannels ((flattenedChannels
          (plannedWidths config.enteringChannels 0 config.blocks.length) config.blocks).zip
            (flattenedStrides config.blocks config.strides)),
          spec.fault? config.multiplier = none := by
  rw [listed_iff, ← widths_of_unlisted unlisted]
  apply Iff.intro
  · intro schedulable
    exact ⟨schedulable.stages, schedulable.blocks⟩
  · intro accepted
    rcases accepted with ⟨stages, blocks⟩
    exact ⟨sound, stages, blocks⟩

/-- Without listed widths, stages of stride one and two have a schedule exactly if the first
one does not downsample, the channels behind the entrance are even, their half is no smaller
than the divisor, and as many times four of it as there are stages fit a word. Then the
blocks that pad are the first ones of the later stages that do not downsample. -/
theorem schedule_of_defaults {geometry : Geometry} (unlisted : config.channels = none)
    (accepted : config.geometry = .ok geometry)
    (lengths : config.blocks.length = config.strides.length)
    (some_stage : 1 ≤ config.blocks.length) (depths : ∀ depth ∈ config.blocks, 1 ≤ depth)
    (supported : ∀ stride ∈ config.strides, stride = 1 ∨ stride = 2) :
    ∃ entering, geometry.inChannels = .ok entering ∧
      ((∃ specs, config.schedule = .ok specs) ↔
        config.strides.head? = some 1 ∧ 2 ∣ entering ∧
          (1 ≤ config.multiplier ∧ config.multiplier ≤ entering / 2) ∧
          entering / 2 * 4 ^ config.blocks.length < 2 ^ 64) ∧
      ∀ specs, config.schedule = .ok specs →
        specs.length = config.blocks.sum ∧
          ∀ stage depth stride block, config.blocks[stage]? = some depth →
            config.strides[stage]? = some stride → block < depth →
              ∃ spec, specs[place config.blocks stage block]? = some spec ∧
                (spec.isInjective = true ↔ stage ≠ 0 ∧ block = 0 ∧ stride = 1) := by
  obtain ⟨sound, rfl⟩ := geometry_eq_ok_iff.mp accepted
  have taken_apart := schedulable_of_unlisted_iff unlisted sound
  have fit : Listed (plannedWidths config.enteringChannels 0 _) _ _ ↔ _ :=
    listed_plannedWidths_iff lengths some_stage depths supported
  refine ⟨config.enteringChannels, inChannels_plannedGeometry sound, ?_, ?_⟩
  · apply Iff.intro
    · intro runs
      rcases runs with ⟨specs, scheduled⟩
      obtain ⟨listed, valid⟩ := taken_apart.mp (scheduled_iff.mp scheduled).1
      obtain ⟨divisor, head, even⟩ := (blocks_plannedWidths_iff listed).mp valid
      exact ⟨head, even, divisor, (fit.mp listed).2⟩
    · intro conditions
      rcases conditions with ⟨head, even, divisor, last⟩
      have listed := fit.mpr ⟨Nat.le_trans divisor.1 divisor.2, last⟩
      have valid := (blocks_plannedWidths_iff listed).mpr ⟨divisor, head, even⟩
      exact ⟨_, scheduled_iff.mpr ⟨taken_apart.mpr ⟨listed, valid⟩, rfl⟩⟩
  · intro specs scheduled
    obtain ⟨schedulable, rfl⟩ := scheduled_iff.mp scheduled
    obtain ⟨listed, valid⟩ := taken_apart.mp schedulable
    obtain ⟨-, -, even⟩ := (blocks_plannedWidths_iff listed).mp valid
    have spells := spellsOut_chain listed config.enteringChannels
    rw [specs, widths_of_unlisted unlisted]
    refine ⟨spells.length, ?_⟩
    intro stage depth stride block deep strode inside
    have wide : (plannedWidths config.enteringChannels 0 config.blocks.length)[stage]? = _ :=
      getElem?_plannedWidths (List.getElem?_eq_some_iff.mp deep).1
    obtain ⟨spec, here, -⟩ := spells.stages stage depth _ stride block deep wide strode inside
    exact ⟨spec, here, isInjective_plannedWidths listed even deep strode inside here⟩

/-- Three stages of default width: the second one downsamples, the third one pads. -/
def threeStages : NetworkConfig where
  blocks := [1, 2, 2]
  strides := [1, 2, 1]
  classes := 2
  input := ⟨2, 4, 4⟩
  channels := none
  initialBlock := 0
  dropoutRate := .zero
  multiplier := 1

theorem schedule_of_defaults_threeStages :
    threeStages.geometry = .ok threeStages.plannedGeometry ∧
      ∃ specs, threeStages.schedule = .ok specs ∧ specs.length = 5 ∧
        ∃ spec, specs[3]? = some spec ∧ spec.isInjective = true := by
  have accepted : threeStages.geometry = .ok threeStages.plannedGeometry := by decide
  obtain ⟨entering, enters, runs, blocks⟩ := schedule_of_defaults rfl accepted rfl (by decide)
    (by decide) (by decide)
  cases enters
  obtain ⟨specs, scheduled⟩ := runs.mpr ⟨rfl, by decide, by decide, by decide⟩
  obtain ⟨length, places⟩ := blocks specs scheduled
  obtain ⟨spec, here, injective⟩ := places 2 2 1 0 rfl rfl (by decide)
  exact ⟨accepted, specs, scheduled, length, spec, here,
    injective.mpr ⟨by decide, rfl, rfl⟩⟩

end NetworkConfig

end InvertibleNet
