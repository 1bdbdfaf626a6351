/-
# Which configurations are accepted

The acceptance set of the checks, in plain arithmetic and stage by stage. The
checks expand every stage into blocks and test each block on words that saturate
or overflow; none of that is left in the conditions below. They look at every
stage once, and at a depth only to see that it is positive.
-/

import Mathlib.Data.List.Chain
import Mathlib.Data.List.GetD
import InvertibleNet.Proofs.Binary.Order
import InvertibleNet.Proofs.Network.Plan
import InvertibleNet.Proofs.Schedule.Places

namespace InvertibleNet

namespace Schedule

/-- Whether a stage, a width and a stride, can follow a stage. -/
def Follows (before stage : Nat × Nat) : Prop := StageFits (2 * before.1) stage.1 stage.2

/-- Stages are admitted if the first one can follow the entrance and each further
one the stage before it. -/
theorem admits_cons_iff {multiplier inChannels : Nat} {stage : Nat × Nat}
    {stages : List (Nat × Nat)} (widths : ∀ other ∈ stage :: stages, 1 ≤ other.1) :
    Admits multiplier inChannels (stage :: stages) ↔
      2 ≤ inChannels ∧ (1 ≤ multiplier ∧ ∀ other ∈ stage :: stages, multiplier ≤ other.1) ∧
        StageFits inChannels stage.1 stage.2 ∧ (stage :: stages).IsChain Follows := by
  induction stages generalizing stage inChannels with
  | nil =>
      simp only [Admits, List.mem_singleton, forall_eq, List.IsChain.singleton]
      tauto
  | cons next stages ih =>
      have positive := widths stage List.mem_cons_self
      have later : Admits multiplier (2 * stage.1) (next :: stages) ↔ _ :=
        ih fun other member => widths other (List.mem_cons_of_mem _ member)
      rw [Admits, later, List.isChain_cons_cons]
      apply Iff.intro
      · intro admits
        rcases admits with ⟨⟨pair, multiplier_pos, thin, first⟩, -, ⟨-, others⟩, second, chain⟩
        exact ⟨pair, ⟨multiplier_pos, List.forall_mem_cons.mpr ⟨thin, others⟩⟩, first, second,
          chain⟩
      · intro stages_fit
        rcases stages_fit with ⟨pair, ⟨multiplier_pos, all⟩, first, second, chain⟩
        obtain ⟨thin, others⟩ := List.forall_mem_cons.mp all
        exact ⟨⟨pair, multiplier_pos, thin, first⟩, by omega, ⟨multiplier_pos, others⟩, second, chain⟩

/-- A stage follows another one if it keeps or widens the channels, or downsamples
and takes four times as many. -/
theorem follows_iff {before stage : Nat × Nat} :
    Follows before stage ↔
      stage.2 = 1 ∧ before.1 ≤ stage.1 ∨ stage.2 = 2 ∧ stage.1 = 4 * before.1 := by
  unfold Follows StageFits
  omega

/-- The conditions on neighbouring stages, place by place. -/
theorem isChain_follows_iff {widths strides : List Nat} (lengths : widths.length = strides.length) :
    (widths.zip strides).IsChain Follows ↔
      ∀ stage, stage + 1 < strides.length →
        strides.getD (stage + 1) 0 = 1 ∧ widths.getD stage 0 ≤ widths.getD (stage + 1) 0 ∨
          strides.getD (stage + 1) 0 = 2 ∧
            widths.getD (stage + 1) 0 = 4 * widths.getD stage 0 := by
  rw [List.isChain_iff_getElem]
  have same : (widths.zip strides).length = strides.length := by simp [lengths]
  have here (stage : Nat) (inside : stage + 1 < (widths.zip strides).length) :
      Follows (widths.zip strides)[stage] (widths.zip strides)[stage + 1] ↔
        strides.getD (stage + 1) 0 = 1 ∧ widths.getD stage 0 ≤ widths.getD (stage + 1) 0 ∨
          strides.getD (stage + 1) 0 = 2 ∧
            widths.getD (stage + 1) 0 = 4 * widths.getD stage 0 := by
    rw [follows_iff, List.getElem_zip, List.getElem_zip,
      List.getD_eq_getElem _ _ (by omega), List.getD_eq_getElem _ _ (by omega),
      List.getD_eq_getElem _ _ (by omega)]
  apply Iff.intro
  · intro chain stage bound
    exact (here stage (by omega)).mp (chain stage (by omega))
  · intro later stage inside
    exact (here stage inside).mpr (later stage (by omega))

/-- All blocks of a schedule pass their checks exactly if its stages, looked at one
by one, fit what is in front of them. -/
theorem blocks_valid_iff {multiplier inChannels : Nat} {widths blocks strides : List Nat}
    (stages : stageFault? widths blocks strides = none) :
    (∀ spec ∈ chain 0 inChannels ((flattenedChannels widths blocks).zip
        (flattenedStrides blocks strides)), spec.fault? multiplier = none) ↔
      2 ≤ inChannels ∧ (1 ≤ multiplier ∧ ∀ width ∈ widths, multiplier ≤ width) ∧
        StageFits inChannels (widths.getD 0 0) (strides.getD 0 0) ∧
          (widths.zip strides).IsChain Follows := by
  obtain ⟨⟨widths_length, strides_length⟩, nonempty, depths, fits, -⟩ :=
    stageFault?_eq_none_iff.mp stages
  rw [chain_valid_iff 0 inChannels widths_length strides_length depths fits]
  have firsts : (widths.zip strides).map Prod.fst = widths :=
    List.map_fst_zip (by omega)
  have positive : ∀ stage ∈ widths.zip strides, 1 ≤ stage.1 := fun stage member =>
    (fits stage.1 (firsts ▸ List.mem_map_of_mem member)).1
  have thin : (∀ stage ∈ widths.zip strides, multiplier ≤ stage.1) ↔
      ∀ width ∈ widths, multiplier ≤ width := by
    conv_rhs => rw [← firsts]
    exact List.forall_mem_map.symm
  rw [← thin]
  cases widths with
  | nil =>
      cases blocks with
      | nil => exact absurd rfl nonempty
      | cons depth blocks => simp at widths_length
  | cons width widths =>
      cases strides with
      | nil =>
          rw [strides_length] at widths_length
          simp at widths_length
      | cons stride strides => exact admits_cons_iff positive

end Schedule

namespace NetworkConfig

/-- The conditions that a configuration has to meet. -/
structure Admissible (config : NetworkConfig) : Prop where
  classes : 1 ≤ config.classes
  input : 1 ≤ config.input.channels ∧ 1 ≤ config.input.height ∧ 1 ≤ config.input.width
  /-- The product of the initial block and of the stage strides fits a word. -/
  stride : max config.initialBlock 1 * 2 ^ config.strides.count 2 < 2 ^ 64
  height : max config.initialBlock 1 * 2 ^ config.strides.count 2 ∣ config.input.height
  width : max config.initialBlock 1 * 2 ^ config.strides.count 2 ∣ config.input.width
  entering : 2 ≤ config.enteringChannels ∧ config.enteringChannels < 2 ^ 64
  lengths : config.widths.length = config.strides.length ∧
    config.blocks.length = config.strides.length ∧ 1 ≤ config.strides.length
  depths : ∀ depth ∈ config.blocks, 1 ≤ depth
  widths : ∀ width ∈ config.widths, 1 ≤ width ∧ 4 * width < 2 ^ 64
  strides : ∀ stride ∈ config.strides, stride = 1 ∨ stride = 2
  multiplier : 1 ≤ config.multiplier ∧ ∀ width ∈ config.widths, config.multiplier ≤ width
  /-- The first stage fits the channels behind the entrance. -/
  first : config.strides.getD 0 0 = 1 ∧ config.enteringChannels ≤ 2 * config.widths.getD 0 0 ∨
    config.strides.getD 0 0 = 2 ∧ 2 ∣ config.enteringChannels ∧
      config.widths.getD 0 0 = 2 * config.enteringChannels
  /-- Each further stage fits the one before it. -/
  later : ∀ stage, stage + 1 < config.strides.length →
    config.strides.getD (stage + 1) 0 = 1 ∧
        config.widths.getD stage 0 ≤ config.widths.getD (stage + 1) 0 ∨
      config.strides.getD (stage + 1) 0 = 2 ∧
        config.widths.getD (stage + 1) 0 = 4 * config.widths.getD stage 0
  dropout : config.dropoutRate.IsFraction

variable {config : NetworkConfig}

theorem sound_plannedGeometry_iff :
    config.plannedGeometry.Sound ↔
      (1 ≤ config.input.channels ∧ 1 ≤ config.input.height ∧ 1 ≤ config.input.width) ∧
        max config.initialBlock 1 * 2 ^ config.strides.count 2 < 2 ^ 64 ∧
        max config.initialBlock 1 * 2 ^ config.strides.count 2 ∣ config.input.height ∧
        max config.initialBlock 1 * 2 ^ config.strides.count 2 ∣ config.input.width ∧
        config.enteringChannels < 2 ^ 64 :=
  Geometry.sound_planned_iff

/-- What the checks of a plan and of its blocks accept. -/
theorem admissible_iff :
    config.Admissible ↔ config.Plannable ∧ config.dropoutRate.IsFraction := by
  apply Iff.intro
  · intro admissible
    obtain ⟨classes, input, stride, height, width, ⟨pair, word⟩, ⟨widths_length, blocks_length,
      nonempty⟩, depths, widths, strides, multiplier, first, later, dropout⟩ := admissible
    have listed : Schedule.Listed config.widths config.blocks config.strides :=
      ⟨⟨widths_length.trans blocks_length.symm, blocks_length, by omega⟩, depths, widths, strides⟩
    have stages := Schedule.listed_iff.mp listed
    have fits : Schedule.StageFits config.enteringChannels (config.widths.getD 0 0)
        (config.strides.getD 0 0) := by
      unfold Schedule.StageFits
      omega
    exact ⟨⟨Nat.ne_of_gt classes, sound_plannedGeometry_iff.mpr ⟨input, stride, height, width, word⟩,
      stages, (Schedule.blocks_valid_iff stages).mpr ⟨pair, multiplier, fits,
        (Schedule.isChain_follows_iff widths_length).mpr later⟩⟩, dropout⟩
  · intro plannable
    rcases plannable with ⟨⟨classes, sound, stages, blocks⟩, dropout⟩
    obtain ⟨input, stride, height, width, word⟩ := sound_plannedGeometry_iff.mp sound
    obtain ⟨⟨widths_length, blocks_length, some_stage⟩, depths, widths, strides⟩ :=
      Schedule.listed_iff.mpr stages
    obtain ⟨pair, multiplier, fits, chain⟩ := (Schedule.blocks_valid_iff stages).mp blocks
    have lengths := widths_length.trans blocks_length
    have first := fits
    unfold Schedule.StageFits at first
    exact {
      classes := Nat.pos_of_ne_zero classes
      input := input
      stride := stride
      height := height
      width := width
      entering := ⟨pair, word⟩
      lengths := ⟨lengths, blocks_length, by omega⟩
      depths := depths
      widths := widths
      strides := strides
      multiplier := multiplier
      first := by omega
      later := (Schedule.isChain_follows_iff lengths).mp chain
      dropout := dropout }

theorem build_isOk_iff {m : Type → Type} [Monad m] {source : WeightSource m} :
    (∃ network, config.build source = .ok network) ↔ config.Admissible := by
  rw [admissible_iff, ← Double.isFraction_iff]
  apply Iff.intro
  · intro succeeds
    rcases succeeds with ⟨network, built⟩
    obtain ⟨plan, builds, -⟩ := build_eq_ok_iff.mp built
    exact (builds_iff.mp builds).1
  · intro accepted
    exact ⟨_, build_eq_ok_iff.mpr ⟨_, builds_iff.mpr ⟨accepted, rfl⟩, rfl⟩⟩

/-- Other depths, as many and all positive, change nothing about the conditions. -/
theorem Admissible.with_depths {depths : List Nat} (admissible : config.Admissible)
    (lengths : depths.length = config.blocks.length) (positive : ∀ depth ∈ depths, 1 ≤ depth) :
    ({ config with blocks := depths } : NetworkConfig).Admissible := by
  have widths : ({ config with blocks := depths } : NetworkConfig).widths = config.widths := by
    unfold NetworkConfig.widths
    simp only [lengths]
    rfl
  obtain ⟨classes, input, stride, height, width, entering, ⟨widths_length, blocks_length, nonempty⟩,
    -, fits, strides, multiplier, first, later, dropout⟩ := admissible
  refine ⟨classes, input, stride, height, width, entering, ?_, positive, ?_, strides, ?_, ?_, ?_,
    dropout⟩
  · exact ⟨widths ▸ widths_length, lengths.trans blocks_length, nonempty⟩
  · exact widths ▸ fits
  · exact widths ▸ multiplier
  · exact widths ▸ first
  · exact widths ▸ later

/-- Exactly the admissible configurations are built, the others are refused with a
fault of the configuration, and beyond being positive no depth has a say in it. -/
theorem build_acceptance {m : Type → Type} [Monad m] (config : NetworkConfig)
    (source : WeightSource m) :
    ((∃ network, config.build source = .ok network) ↔ config.Admissible) ∧
      (∀ fault, config.build source = .error fault → fault.isConfig = true) ∧
      ∀ depths : List Nat, depths.length = config.blocks.length →
        (∀ depth ∈ depths, 1 ≤ depth) → (∀ depth ∈ config.blocks, 1 ≤ depth) →
          ((∃ network, ({ config with blocks := depths } : NetworkConfig).build source =
              .ok network) ↔ ∃ network, config.build source = .ok network) := by
  refine ⟨build_isOk_iff, build_configOnly config source, fun depths lengths positive depths_pos => ?_⟩
  rw [build_isOk_iff, build_isOk_iff]
  apply Iff.intro
  · intro admissible
    exact admissible.with_depths lengths.symm depths_pos
  · intro admissible
    exact admissible.with_depths lengths positive

end NetworkConfig

end InvertibleNet
