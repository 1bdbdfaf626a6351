/-
# What a deeper stage changes

One more block in a stage of a configuration, seen from outside: what is built of it, and
what the summaries of the two configurations have in common. The schedule has one more entry,
the count grows by what this entry stores, and neither the geometry nor the extents of the
features move.
-/

import InvertibleNet.Proofs.Command.Parameters
import InvertibleNet.Proofs.Network.Depth

namespace InvertibleNet

open InvertibleNet.Action NetworkConfig

variable {config : NetworkConfig} {plan : Plan} {stage width : Nat}

namespace NetworkConfig

/-- The features of the deeper configuration have the extents they had. -/
theorem Schedulable.features_deepened (schedulable : config.Schedulable)
    (inside : stage < config.blocks.length) :
    (config.deepened stage).planned.features = config.planned.features := by
  obtain ⟨depth, width, stride, deep, wide, strode⟩ := schedulable.exists_stage inside
  rw [Plan.features, outChannels_deepened deep wide strode]
  rfl

theorem IsConstructible.deepened (constructible : config.IsConstructible)
    (inside : stage < config.blocks.length) : (config.deepened stage).IsConstructible := by
  obtain ⟨builds, room⟩ := constructible
  obtain ⟨⟨plannable, -⟩, -⟩ := builds_iff.mp builds
  exact ⟨builds.deepened inside, plannable.schedulable.checkRoom_deepened inside room⟩

/-- The summary of the deeper configuration, next to that of the configuration. -/
theorem Schedulable.summary_deepened (schedulable : config.Schedulable)
    (builds : config.Builds config.planned) (inside : stage < config.blocks.length)
    (wide : config.widths[stage]? = some width) :
    (config.deepened stage).summary.features = config.summary.features ∧
      (config.deepened stage).summary.parameters =
        config.summary.parameters + Schedule.deepeningStorage width config.multiplier := by
  refine ⟨schedulable.features_deepened inside, ?_⟩
  have deeper : (config.deepened stage).summary.parameters =
      Schedule.storage config.multiplier config.classes (config.deepened stage).specs :=
    (builds.deepened inside).parameterCount_freshNetwork
  rw [deeper, schedulable.storage_deepened inside wide]
  exact congrArg (· + _) builds.parameterCount_freshNetwork.symm

/-- One more block in a stage of a configuration that is built: it is built as well, with the one
block added behind its stage, and nothing but the count and the later numbers changes. -/
theorem depth_changes_only (builds : config.Builds plan) (inside : stage < config.blocks.length) :
    ∃ channels width deeper, config.stageChannels = .ok channels ∧
      channels[stage]? = some width ∧ (config.deepened stage).Builds deeper ∧
      (config.checkRoom plan = .ok () → (config.deepened stage).checkRoom deeper = .ok ()) ∧
      config.schedule = .ok plan.specs ∧ (config.deepened stage).schedule = .ok deeper.specs ∧
      deeper.specs = plan.specs.take (config.placeBehind stage) ++
        Schedule.repeated (config.placeBehind stage) width ::
          (plan.specs.drop (config.placeBehind stage)).map (·.raised) ∧
      (Schedule.repeated (config.placeBehind stage) width).isInjective = false ∧
      deeper.geometry = plan.geometry ∧ deeper.features = plan.features ∧
      (∀ weights more : Weights, weights.Covers plan config.multiplier →
        more.Covers deeper config.multiplier →
          (Network.mk deeper more).parameterCount = (Network.mk plan weights).parameterCount +
            Schedule.deepeningStorage width config.multiplier) ∧
      ∀ (source other : Source) (before later middle reached : Session),
        source.resolve.Gives before config middle →
          other.resolve.Gives later (config.deepened stage) reached →
            ∀ summary after, source.summarise.Gives before summary after →
              ∃ more last, other.summarise.Gives later more last ∧
                more.features = summary.features ∧
                more.parameters = summary.parameters +
                  Schedule.deepeningStorage width config.multiplier := by
  obtain ⟨⟨plannable, -⟩, rfl⟩ := builds_iff.mp builds
  have schedulable := plannable.schedulable
  obtain ⟨depth, width, stride, deep, wide, strode⟩ := schedulable.exists_stage inside
  have room := schedulable.listed.room (List.mem_of_getElem? wide)
  have deeper := builds.deepened inside
  refine ⟨config.widths, width, (config.deepened stage).planned,
    stageChannels_eq schedulable.geometry schedulable.stages, wide, deeper,
    schedulable.checkRoom_deepened inside, scheduled_iff.mpr ⟨schedulable, rfl⟩,
    scheduled_iff.mpr ⟨schedulable.deepened inside, rfl⟩, specs_deepened deep wide strode,
    Schedule.isInjective_repeated room, rfl, schedulable.features_deepened inside, ?_, ?_⟩
  · intro weights more covers more_covers
    rw [deeper.parameterCount_eq more_covers, builds.parameterCount_eq covers]
    exact schedulable.storage_deepened inside wide
  · intro source other before later middle reached resolves resolves_deeper summary after describes
    obtain ⟨found, _, again, constructible, rfl⟩ :=
      Source.exists_summarise_gives_iff.mp ⟨after, describes⟩
    obtain ⟨rfl, -⟩ := resolves.unique again
    obtain ⟨last, described⟩ := Source.exists_summarise_gives_iff.mpr
      ⟨_, reached, resolves_deeper, constructible.deepened inside, rfl⟩
    exact ⟨_, last, described, schedulable.summary_deepened builds inside wide⟩

/-- A second block in the first stage of the small configuration takes and gives two channels a
half, and stores 132 values. -/
theorem depth_changes_only_small :
    small.Builds small.planned ∧ 0 < small.blocks.length ∧
      ∃ deeper, (small.deepened 0).Builds deeper ∧
        deeper.specs = [⟨0, 3, 2, 1, true⟩, ⟨1, 4, 2, 1, false⟩, ⟨2, 4, 8, 2, false⟩] ∧
        ∀ weights : Weights, weights.Covers deeper 1 →
          (Network.mk deeper weights).parameterCount = 1590 + 132 := by
  have inside : 0 < small.blocks.length := by decide
  obtain ⟨channels, width, deeper, listed, wide, built, -, -, -, specs, -, -, -, counts, -⟩ :=
    depth_changes_only builds_small inside
  cases listed.symm.trans (show small.stageChannels = .ok [2, 8] from rfl)
  cases wide
  refine ⟨builds_small, inside, deeper, built, specs, fun weights covers => ?_⟩
  have stored : (small.freshNetwork small.planned).parameterCount = 1590 := by
    rw [builds_small.parameterCount_freshNetwork]
    decide
  have fresh : (small.freshNetwork small.planned).weights.Covers small.planned small.multiplier :=
    Weights.covers_draw WeightSource.covers_fresh small.planned small.multiplier
  have added : Schedule.deepeningStorage 2 small.multiplier = 132 := by decide
  rw [counts _ weights fresh covers, added]
  exact congrArg (· + 132) stored

end NetworkConfig

end InvertibleNet
