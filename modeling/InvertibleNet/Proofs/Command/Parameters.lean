/-
# What the commands count

Two commands say how much a network stores: the summary of an architecture, and the making
of a checkpoint. Both build a network with fresh weights and count those. So what they say
is the closed form of the schedule, and the weights, the dropout rate and the extents of
the samples leave no trace in it.
-/

import InvertibleNet.Proofs.Command.Initialise
import InvertibleNet.Proofs.Network.Parameters

namespace InvertibleNet

open InvertibleNet.Action

variable {config : NetworkConfig} {plan : Plan} {before middle : Session} {source : Source}

namespace NetworkConfig

/-- Every network that is built of a configuration stores as much as its schedule says. -/
theorem Builds.parameterCount_of_build (builds : config.Builds plan) {weights : WeightSource Id}
    (covers : weights.Covers) {network : Id Network}
    (built : config.build weights = .ok network) :
    network.run.parameterCount = Schedule.storage config.multiplier config.classes plan.specs := by
  obtain ⟨other, again, rfl⟩ := build_eq_ok_iff.mp built
  obtain rfl := (builds_iff.mp again).2.trans (builds_iff.mp builds).2.symm
  exact builds.parameterCount_eq (Weights.covers_draw covers other config.multiplier)

theorem Builds.parameterCount_freshNetwork (builds : config.Builds plan) :
    (config.freshNetwork plan).parameterCount =
      Schedule.storage config.multiplier config.classes plan.specs :=
  builds.parameterCount_eq (Weights.covers_draw WeightSource.covers_fresh plan config.multiplier)

end NetworkConfig

open NetworkConfig

/-- A summary counts what the schedule of its configuration says. -/
theorem Source.parameters_of_summarise (resolves : source.resolve.Gives before config middle)
    (builds : config.Builds plan) {summary : Summary} {after : Session}
    (describes : source.summarise.Gives before summary after) :
    summary.parameters = Schedule.storage config.multiplier config.classes plan.specs := by
  obtain ⟨other, _, again, constructible, rfl⟩ := exists_summarise_gives_iff.mp ⟨after, describes⟩
  obtain ⟨rfl, -⟩ := resolves.unique again
  obtain rfl := (builds_iff.mp builds).2
  exact builds.parameterCount_freshNetwork

/-- Making a checkpoint counts what the schedule of its configuration says. -/
theorem Source.count_of_initialise (resolves : source.resolve.Gives before config middle)
    (builds : config.Builds plan) {directory : String} {count : Nat} {after : Session}
    (initialises : (source.initialise directory).Gives before count after) :
    count = Schedule.storage config.multiplier config.classes plan.specs := by
  obtain ⟨-, other, _, network, _, _, again, constructs, -, -, rfl⟩ :=
    initialise_gives_iff.mp initialises
  obtain ⟨rfl, -⟩ := resolves.unique again
  obtain ⟨-, rfl⟩ := exists_construct_gives_iff.mp ⟨_, constructs⟩
  obtain rfl := (builds_iff.mp builds).2
  exact builds.parameterCount_freshNetwork

/-- How much a network stores, in closed form: for the weights of any network of the plan,
for every network that is built, in every summary and for every checkpoint that is made. -/
theorem NetworkConfig.parameterCount_closedForm (builds : config.Builds plan) :
    config.schedule = .ok plan.specs ∧ 1 ≤ config.multiplier ∧
      (∀ place spec, plan.specs[place]? = some spec →
        (spec.stride = 1 ∨ spec.stride = 2) ∧ spec.halfChannels = spec.plainHalf ∧
          spec.bottleneckWidth config.multiplier = spec.outChannels / config.multiplier ∧
          (spec.isFirst = true ↔ place = 0)) ∧
      (∀ weights : Weights, weights.Covers plan config.multiplier →
        (Network.mk plan weights).parameterCount =
          Schedule.storage config.multiplier config.classes plan.specs) ∧
      (∀ weights : WeightSource Id, weights.Covers → ∃ network,
        config.build weights = .ok network ∧
          network.run.parameterCount =
            Schedule.storage config.multiplier config.classes plan.specs) ∧
      ∀ (source : Source) (before middle : Session), source.resolve.Gives before config middle →
        (config.checkRoom plan = .ok () →
          ∃ summary after, source.summarise.Gives before summary after) ∧
        (∀ summary after, source.summarise.Gives before summary after →
          summary.parameters = Schedule.storage config.multiplier config.classes plan.specs) ∧
        ∀ directory count after, (source.initialise directory).Gives before count after →
          count = Schedule.storage config.multiplier config.classes plan.specs := by
  obtain ⟨⟨plannable, -⟩, rfl⟩ := builds_iff.mp builds
  have schedulable := plannable.schedulable
  refine ⟨scheduled_iff.mpr ⟨schedulable, rfl⟩, schedulable.multiplier_pos, ?_,
    fun weights covers => builds.parameterCount_eq covers, fun weights covers => ?_,
    fun source before middle resolves => ⟨fun room => ?_, ?_, ?_⟩⟩
  · intro place spec here
    have sound := schedulable.sound spec (List.mem_of_getElem? here)
    exact ⟨sound.stride, sound.halfChannels_eq, spec.bottleneckWidth_eq config.multiplier,
      (schedulable.numbers here).2⟩
  · have built : config.build weights = .ok (Network.mk config.planned <$>
        Weights.draw weights config.planned config.multiplier) :=
      build_eq_ok_iff.mpr ⟨config.planned, builds, rfl⟩
    exact ⟨_, built, builds.parameterCount_of_build covers built⟩
  · exact ⟨config.summary, Source.exists_summarise_gives_iff.mpr
      ⟨config, middle, resolves, ⟨builds, room⟩, rfl⟩⟩
  · exact fun summary after describes => source.parameters_of_summarise resolves builds describes
  · exact fun directory count after makes => source.count_of_initialise resolves builds makes

/-- The small configuration stores 124 values in its first block, 1368 in its second one and 98
behind them. -/
theorem NetworkConfig.parameterCount_closedForm_small :
    small.Builds small.planned ∧
      (small.freshNetwork small.planned).parameterCount = 1590 ∧
      Source.configured.resolve.Gives (.start Source.configuredDirectory) small
        (.start Source.configuredDirectory) ∧
      ∃ summary after, Source.configured.summarise.Gives (.start Source.configuredDirectory)
        summary after ∧ summary.parameters = 1590 := by
  obtain ⟨-, -, -, complete, -, described⟩ := parameterCount_closedForm builds_small
  have closed : Schedule.storage small.multiplier small.classes small.planned.specs = 1590 := by
    decide
  have resolves := Source.resolve_configured.mpr ⟨rfl, rfl⟩
  obtain ⟨summarised, counted, -⟩ := described Source.configured _ _ resolves
  obtain ⟨summary, after, describes⟩ := summarised Source.isConstructible_small.2
  exact ⟨builds_small,
    (complete _ (Weights.covers_draw WeightSource.covers_fresh _ _)).trans closed, resolves,
    summary, after, describes, (counted summary after describes).trans closed⟩

end InvertibleNet
