/-
# Plans

The plan of a configuration, computed in naturals without a single check, and
the theorem that the checked computation gives it or refuses. What it refuses it
names as a fault of the configuration.
-/

import InvertibleNet.Network.Basic
import InvertibleNet.Proofs.Network.Counts
import InvertibleNet.Proofs.Schedule.Stages

namespace InvertibleNet

namespace NetworkConfig

open Outcome

/-! ## What a configuration plans -/

def plannedGeometry (config : NetworkConfig) : Geometry :=
  Geometry.planned config.input config.initialBlock config.strides

/-- Channels behind the rearrangement at the entrance. -/
def enteringChannels (config : NetworkConfig) : Nat :=
  config.input.channels * max config.initialBlock 1 ^ 2

/-- Output channels of every stage, listed or by default. -/
def widths (config : NetworkConfig) : List Nat :=
  match config.channels with
  | some channels => channels
  | none => Schedule.plannedWidths config.enteringChannels 0 config.blocks.length

def specs (config : NetworkConfig) : List BlockSpec :=
  Schedule.chain 0 config.enteringChannels
    ((Schedule.flattenedChannels config.widths config.blocks).zip
      (Schedule.flattenedStrides config.blocks config.strides))

/-- The plan, as far as it makes sense without the checks. -/
def planned (config : NetworkConfig) : Plan where
  geometry := config.plannedGeometry
  specs := config.specs
  inChannels := config.enteringChannels
  outChannels := 2 * config.specs.getLast?.elim 0 (·.outChannels)
  pooled := (config.input.height / config.plannedGeometry.cumulativeStride,
    config.input.width / config.plannedGeometry.cumulativeStride)
  classes := config.classes

/-- What the checks of a plan come down to. -/
structure Plannable (config : NetworkConfig) : Prop where
  classes : config.classes ≠ 0
  geometry : config.plannedGeometry.Sound
  stages : Schedule.stageFault? config.widths config.blocks config.strides = none
  blocks : ∀ spec ∈ config.specs, spec.fault? config.multiplier = none

/-- What the checks of a schedule come down to. They ask for neither classes nor a dropout
rate. -/
structure Schedulable (config : NetworkConfig) : Prop where
  geometry : config.plannedGeometry.Sound
  stages : Schedule.stageFault? config.widths config.blocks config.strides = none
  blocks : ∀ spec ∈ config.specs, spec.fault? config.multiplier = none

variable {config : NetworkConfig}

theorem Plannable.schedulable (plannable : config.Plannable) : config.Schedulable :=
  ⟨plannable.geometry, plannable.stages, plannable.blocks⟩

/-! ## The steps of the computation -/

theorem geometry_eq_ok_iff {geometry : Geometry} :
    config.geometry = .ok geometry ↔
      config.plannedGeometry.Sound ∧ geometry = config.plannedGeometry :=
  Geometry.ofStrides_eq_ok_iff

theorem geometry_eq (sound : config.plannedGeometry.Sound) :
    config.geometry = .ok config.plannedGeometry :=
  geometry_eq_ok_iff.mpr ⟨sound, rfl⟩

theorem inChannels_plannedGeometry (sound : config.plannedGeometry.Sound) :
    config.plannedGeometry.inChannels = .ok config.enteringChannels :=
  sound.inChannels_eq (Geometry.initialBlock_planned_pos _ _ _)

theorem stageChannels_of_sound (sound : config.plannedGeometry.Sound) :
    config.stageChannels = match config.channels with
      | some channels => .ok channels
      | none => Schedule.defaultWidths config.enteringChannels 0 config.blocks.length := by
  unfold stageChannels
  rw [geometry_eq sound]
  cases config.channels with
  | some channels => rfl
  | none =>
      show (config.plannedGeometry.inChannels >>= fun entering =>
        Schedule.defaultChannels entering config.blocks.length) = _
      rw [inChannels_plannedGeometry sound]
      rfl

theorem widths_of_stageChannels (sound : config.plannedGeometry.Sound) {channels : List Nat}
    (found : config.stageChannels = .ok channels) : channels = config.widths := by
  rw [stageChannels_of_sound sound] at found
  unfold widths
  cases listed : config.channels with
  | some listedChannels =>
      rw [listed] at found
      cases found
      rfl
  | none =>
      rw [listed] at found
      exact (Schedule.defaultWidths_eq_ok_iff.mp found).2

theorem stageChannels_eq (sound : config.plannedGeometry.Sound)
    (stages : Schedule.stageFault? config.widths config.blocks config.strides = none) :
    config.stageChannels = .ok config.widths := by
  have fits := (Schedule.stageFault?_eq_none_iff.mp stages).2.2.2.1
  rw [stageChannels_of_sound sound]
  unfold widths at fits ⊢
  cases listed : config.channels with
  | some channels => rfl
  | none =>
      rw [listed] at fits
      refine Schedule.defaultWidths_of_fits fun width member => ⟨(fits width member).1, ?_⟩
      have := (fits width member).2
      omega

theorem validate_eq_ok_iff {spec : BlockSpec} {multiplier : Nat} :
    spec.validate multiplier = .ok () ↔ spec.fault? multiplier = none := by
  unfold BlockSpec.validate
  cases spec.fault? multiplier with
  | some fault => simp
  | none => simp

theorem schedule_of_sound (sound : config.plannedGeometry.Sound) :
    config.schedule = (config.stageChannels >>= fun channels =>
      Schedule.expand config.enteringChannels channels config.blocks config.strides >>= fun specs =>
        (specs.forM fun spec => spec.validate config.multiplier) >>= fun _ => .ok specs) := by
  unfold schedule
  rw [geometry_eq sound]
  show (config.stageChannels >>= fun channels =>
    config.plannedGeometry.inChannels >>= fun _ => _) = _
  rw [inChannels_plannedGeometry sound]
  rfl

theorem schedule_eq_ok_iff (sound : config.plannedGeometry.Sound) {specs : List BlockSpec} :
    config.schedule = .ok specs ↔
      (Schedule.stageFault? config.widths config.blocks config.strides = none ∧
        ∀ spec ∈ config.specs, spec.fault? config.multiplier = none) ∧ specs = config.specs := by
  rw [schedule_of_sound sound, bind_eq_ok_iff]
  apply Iff.intro
  · intro scheduled
    rcases scheduled with ⟨channels, found, rest⟩
    cases widths_of_stageChannels sound found
    obtain ⟨expanded, written, checked⟩ := bind_eq_ok_iff.mp rest
    obtain ⟨stages, rfl⟩ := Schedule.expand_eq_ok_iff.mp written
    obtain ⟨⟨⟩, valid, made⟩ := bind_eq_ok_iff.mp checked
    cases made
    exact ⟨⟨stages, fun spec member => validate_eq_ok_iff.mp
      (forM_eq_ok_iff.mp valid spec member)⟩, rfl⟩
  · intro planned
    rcases planned with ⟨⟨stages, blocks⟩, rfl⟩
    have valid : (config.specs.forM fun spec => spec.validate config.multiplier) = .ok () :=
      forM_eq_ok_iff.mpr fun spec member => validate_eq_ok_iff.mpr (blocks spec member)
    exact ⟨_, stageChannels_eq sound stages, bind_eq_ok_iff.mpr
      ⟨_, Schedule.expand_eq_ok_iff.mpr ⟨stages, rfl⟩, bind_eq_ok_iff.mpr ⟨_, valid, rfl⟩⟩⟩

/-- The validated schedule is the planned one, and it exists exactly if nothing is
refused. -/
theorem scheduled_iff {specs : List BlockSpec} :
    config.schedule = .ok specs ↔ config.Schedulable ∧ specs = config.specs := by
  apply Iff.intro
  · intro scheduled
    have steps := scheduled
    unfold schedule at steps
    obtain ⟨geometry, accepted, -⟩ := bind_eq_ok_iff.mp steps
    have sound := (geometry_eq_ok_iff.mp accepted).1
    obtain ⟨⟨stages, blocks⟩, written⟩ := (schedule_eq_ok_iff sound).mp scheduled
    exact ⟨⟨sound, stages, blocks⟩, written⟩
  · intro planned
    rcases planned with ⟨⟨sound, stages, blocks⟩, written⟩
    exact (schedule_eq_ok_iff sound).mpr ⟨⟨stages, blocks⟩, written⟩

/-- A schedule that can be written out has a block. -/
theorem specs_ne_nil
    (stages : Schedule.stageFault? config.widths config.blocks config.strides = none) :
    config.specs ≠ [] :=
  Schedule.chain_flattened_ne_nil stages

theorem assemble_eq (sound : config.plannedGeometry.Sound)
    (stages : Schedule.stageFault? config.widths config.blocks config.strides = none) :
    Plan.assemble config.plannedGeometry config.specs config.classes = .ok config.planned := by
  have ends := List.getLast?_eq_some_getLast (specs_ne_nil stages)
  rw [Plan.assemble, planned, ends, inChannels_plannedGeometry sound, sound.pooledSize_eq]
  rfl

/-- The checked plan is the planned one, and it exists exactly if nothing is
refused. -/
theorem plan_eq_ok_iff {plan : Plan} :
    config.plan = .ok plan ↔ config.Plannable ∧ plan = config.planned := by
  unfold NetworkConfig.plan
  by_cases classless : config.classes = 0
  · rw [if_pos classless]
    simp only [reduceCtorEq, false_iff, not_and]
    exact fun plannable => absurd classless plannable.classes
  rw [if_neg classless, bind_eq_ok_iff]
  apply Iff.intro
  · intro made
    rcases made with ⟨geometry, accepted, rest⟩
    obtain ⟨sound, rfl⟩ := geometry_eq_ok_iff.mp accepted
    obtain ⟨specs, scheduled, made⟩ := bind_eq_ok_iff.mp rest
    obtain ⟨schedulable, rfl⟩ := scheduled_iff.mp scheduled
    rw [assemble_eq sound schedulable.stages] at made
    cases made
    exact ⟨⟨classless, sound, schedulable.stages, schedulable.blocks⟩, rfl⟩
  · intro planned
    rcases planned with ⟨plannable, rfl⟩
    exact ⟨_, geometry_eq plannable.geometry, bind_eq_ok_iff.mpr
      ⟨_, scheduled_iff.mpr ⟨plannable.schedulable, rfl⟩,
        assemble_eq plannable.geometry plannable.stages⟩⟩

/-! ## Refusals -/

theorem validate_configOnly (spec : BlockSpec) (multiplier : Nat) :
    ConfigOnly (spec.validate multiplier) := by
  unfold BlockSpec.validate
  cases spec.fault? multiplier with
  | some fault => exact ConfigOnly.config _
  | none => exact ConfigOnly.ok _

theorem stageChannels_configOnly (sound : config.plannedGeometry.Sound) :
    ConfigOnly config.stageChannels := by
  rw [stageChannels_of_sound sound]
  cases config.channels with
  | some channels => exact ConfigOnly.ok _
  | none => exact Schedule.defaultWidths_configOnly _ _ _

theorem schedule_configOnly (sound : config.plannedGeometry.Sound) :
    ConfigOnly config.schedule := by
  rw [schedule_of_sound sound]
  apply ConfigOnly.bind (stageChannels_configOnly sound)
  intro channels _
  apply ConfigOnly.bind (Schedule.expand_configOnly _ _ _ _)
  intro specs _
  refine ConfigOnly.bind ?_ fun _ _ => ConfigOnly.ok _
  exact ConfigOnly.forM fun spec _ => validate_configOnly spec config.multiplier

/-- A plan is refused with faults of the configuration only: once there is a
geometry, none of its counts can run past a word. -/
theorem plan_configOnly (config : NetworkConfig) : ConfigOnly config.plan := by
  unfold NetworkConfig.plan
  split
  · exact ConfigOnly.config _
  apply ConfigOnly.bind (Geometry.ofStrides_configOnly _ _ _)
  intro geometry accepted
  obtain ⟨sound, rfl⟩ := geometry_eq_ok_iff.mp accepted
  apply ConfigOnly.bind (schedule_configOnly sound)
  intro specs scheduled
  obtain ⟨schedulable, rfl⟩ := scheduled_iff.mp scheduled
  rw [assemble_eq sound schedulable.stages]
  exact ConfigOnly.ok _

/-! ## Building -/

/-- Whether the configuration is built into a network of this plan. -/
def Builds (config : NetworkConfig) (plan : Plan) : Prop :=
  config.plan = .ok plan ∧ config.checkBlocks plan = .ok ()

theorem check_eq_ok_iff {spec : BlockSpec} {rate : Double} {multiplier : Nat} :
    Block.check spec rate multiplier = .ok () ↔
      spec.fault? multiplier = none ∧ (Double.zero.atMost rate && rate.less .one) = true := by
  unfold Block.check
  rw [bind_eq_ok_iff]
  apply Iff.intro
  · intro checked
    rcases checked with ⟨⟨⟩, valid, rest⟩
    refine ⟨validate_eq_ok_iff.mp valid, ?_⟩
    split at rest
    · next inside => exact inside
    · cases rest
  · intro both
    rcases both with ⟨valid, inside⟩
    refine ⟨(), validate_eq_ok_iff.mpr valid, ?_⟩
    rw [if_pos inside]
    rfl

/-- A network is built of the planned plan, if nothing is refused and the dropout
rate is from zero on and below one. -/
theorem builds_iff {plan : Plan} :
    config.Builds plan ↔
      (config.Plannable ∧
        (Double.zero.atMost config.dropoutRate && config.dropoutRate.less .one) = true) ∧
        plan = config.planned := by
  unfold Builds checkBlocks
  rw [plan_eq_ok_iff, forM_eq_ok_iff]
  apply Iff.intro
  · intro accepted
    rcases accepted with ⟨⟨plannable, rfl⟩, checks⟩
    have ends := List.getLast_mem (specs_ne_nil plannable.stages)
    exact ⟨⟨plannable, (check_eq_ok_iff.mp (checks _ ends)).2⟩, rfl⟩
  · intro accepted
    rcases accepted with ⟨⟨plannable, inside⟩, rfl⟩
    exact ⟨⟨plannable, rfl⟩, fun spec member =>
      check_eq_ok_iff.mpr ⟨plannable.blocks spec member, inside⟩⟩

theorem build_eq_ok_iff {m : Type → Type} [Monad m] {source : WeightSource m}
    {network : m Network} :
    config.build source = .ok network ↔
      ∃ plan, config.Builds plan ∧
        network = Network.mk plan <$> Weights.draw source plan config.multiplier := by
  unfold build
  rw [bind_eq_ok_iff]
  apply Iff.intro
  · intro built
    rcases built with ⟨plan, planned, rest⟩
    obtain ⟨⟨⟩, checked, made⟩ := bind_eq_ok_iff.mp rest
    cases made
    exact ⟨plan, ⟨planned, checked⟩, rfl⟩
  · intro built
    rcases built with ⟨plan, ⟨planned, checked⟩, rfl⟩
    exact ⟨plan, planned, bind_eq_ok_iff.mpr ⟨(), checked, rfl⟩⟩

/-- Whatever keeps a network from being built is a fault of the configuration. -/
theorem build_configOnly {m : Type → Type} [Monad m] (config : NetworkConfig)
    (source : WeightSource m) : ConfigOnly (config.build source) := by
  unfold build
  apply ConfigOnly.bind (plan_configOnly config)
  intro plan _
  refine ConfigOnly.bind (ConfigOnly.forM fun spec _ => ?_) fun _ _ => ConfigOnly.ok _
  apply ConfigOnly.bind (validate_configOnly _ _)
  intro _ _
  split
  · exact ConfigOnly.ok _
  · exact ConfigOnly.config _

end NetworkConfig

end InvertibleNet
