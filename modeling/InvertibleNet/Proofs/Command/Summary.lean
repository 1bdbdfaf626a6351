/-
# What a summary says

A summary takes its schedule and its extents from the configuration once more,
beside building the network. They are those of the plan that the network was
built of. So all that a summary says is settled by the configuration that its
source resolves to.
-/

import InvertibleNet.Command.Summary
import InvertibleNet.Proofs.Command.Session
import InvertibleNet.Proofs.Network.Consistency

namespace InvertibleNet

open InvertibleNet.Action

variable {before after : Session} {config : NetworkConfig} {network : Network}

namespace NetworkConfig

/-! ## Networks that are constructed -/

/-- The network that is built before any stored weights are read. -/
def freshNetwork (config : NetworkConfig) (plan : Plan) : Network :=
  ⟨plan, (Weights.draw WeightSource.fresh plan config.multiplier).run⟩

/-- What it takes to construct a network in a session. -/
theorem construct_gives_iff :
    config.construct.Gives before network after ↔
      ∃ plan, config.Builds plan ∧ config.checkRoom plan = .ok () ∧
        network = config.freshNetwork plan ∧
        after = { before with
          log := before.log ++ [⟨.info, .network, plan.announcement⟩] } := by
  unfold construct Builds
  simp only [gives_bind_iff, gives_compute_iff, gives_log_iff, gives_pure_iff]
  constructor
  · rintro ⟨plan, _, ⟨planned, rfl⟩, _, _, rfl, _, _, ⟨checked, rfl⟩, _, _, ⟨room, rfl⟩, rfl, rfl⟩
    exact ⟨plan, ⟨planned, checked⟩, room, rfl, rfl⟩
  · rintro ⟨plan, ⟨planned, checked⟩, room, rfl, rfl⟩
    exact ⟨plan, _, ⟨planned, rfl⟩, ⟨⟩, _, rfl, ⟨⟩, _, ⟨checked, rfl⟩, ⟨⟩, _, ⟨room, rfl⟩, rfl, rfl⟩

/-- Whether a network of a configuration can be constructed. -/
def IsConstructible (config : NetworkConfig) : Prop :=
  config.Builds config.planned ∧ config.checkRoom config.planned = .ok ()

theorem exists_construct_gives_iff :
    (∃ after, config.construct.Gives before network after) ↔
      config.IsConstructible ∧ network = config.freshNetwork config.planned := by
  simp only [construct_gives_iff, IsConstructible]
  constructor
  · rintro ⟨_, plan, builds, room, rfl, -⟩
    obtain rfl := (builds_iff.mp builds).2
    exact ⟨⟨builds, room⟩, rfl⟩
  · rintro ⟨⟨builds, room⟩, rfl⟩
    exact ⟨_, config.planned, builds, room, rfl, rfl⟩

/-! ## Summaries -/

/-- The summary of a configuration that a network can be constructed of. -/
def summary (config : NetworkConfig) : Summary where
  config := config
  blocks := config.specs
  features := config.planned.features
  parameters := (config.freshNetwork config.planned).parameterCount

/-- The extents of the features, from the schedule and the geometry. -/
theorem features_planned (config : NetworkConfig) :
    config.planned.features =
      ⟨(config.specs.getLast?.map (2 * ·.outChannels)).getD 0, config.planned.pooled.1,
        config.planned.pooled.2⟩ := by
  unfold Plan.features planned
  cases config.specs.getLast? with
  | none => rfl
  | some spec => rfl

end NetworkConfig

open NetworkConfig

/-- What it takes to come to a summary, and what it says. -/
theorem Source.exists_summarise_gives_iff {source : Source} {summary : Summary} :
    (∃ after, source.summarise.Gives before summary after) ↔
      ∃ config middle, source.resolve.Gives before config middle ∧ config.IsConstructible ∧
        summary = config.summary := by
  constructor
  · rintro ⟨last, finished⟩
    obtain ⟨config, middle, resolves, finished⟩ := gives_bind_iff.mp finished
    obtain ⟨blocks, _, scheduled, finished⟩ := gives_bind_iff.mp finished
    obtain ⟨geometry, _, accepted, finished⟩ := gives_bind_iff.mp finished
    obtain ⟨network, _, constructed, finished⟩ := gives_bind_iff.mp finished
    obtain ⟨⟨height, width⟩, _, pooled, finished⟩ := gives_bind_iff.mp finished
    obtain ⟨⟨⟩, _, -, finished⟩ := gives_bind_iff.mp finished
    obtain ⟨rfl, -⟩ := gives_pure_iff.mp finished
    obtain ⟨constructible, rfl⟩ := exists_construct_gives_iff.mp ⟨_, constructed⟩
    obtain ⟨sound, rfl⟩ := geometry_eq_ok_iff.mp (gives_compute_iff.mp accepted).1
    obtain ⟨-, rfl⟩ := scheduled_iff.mp (gives_compute_iff.mp scheduled).1
    have size := (gives_compute_iff.mp pooled).1
    rw [sound.pooledSize_eq] at size
    cases size
    refine ⟨config, middle, resolves, constructible, ?_⟩
    rw [NetworkConfig.summary, features_planned]
    rfl
  · rintro ⟨config, middle, resolves, constructible, rfl⟩
    obtain ⟨⟨plannable, -⟩, -⟩ := builds_iff.mp constructible.1
    have sound := plannable.geometry
    have scheduled : config.schedule = .ok _ := scheduled_iff.mpr ⟨plannable.schedulable, rfl⟩
    obtain ⟨built, constructed⟩ : ∃ built, config.construct.Gives middle _ built :=
      exists_construct_gives_iff.mpr ⟨constructible, rfl⟩
    rw [NetworkConfig.summary, features_planned]
    refine resolves.exists_bind ?_
    refine Gives.exists_bind (gives_compute_iff.mpr ⟨scheduled, rfl⟩) ?_
    refine Gives.exists_bind (gives_compute_iff.mpr ⟨geometry_eq sound, rfl⟩) ?_
    refine constructed.exists_bind ?_
    refine Gives.exists_bind (gives_compute_iff.mpr ⟨sound.pooledSize_eq, rfl⟩) ?_
    exact ⟨_, gives_bind_iff.mpr ⟨⟨⟩, _, gives_log_iff.mpr rfl, gives_pure_iff.mpr ⟨rfl, rfl⟩⟩⟩

/-- A summary is that of the plan of its network. -/
theorem Source.summary_of_plan {source : Source} {summary : Summary}
    (finished : source.summarise.Gives before summary after) :
    ∃ plan, summary.config.Builds plan ∧ summary.blocks = plan.specs ∧
      summary.features = plan.features := by
  obtain ⟨config, _, -, constructible, rfl⟩ := exists_summarise_gives_iff.mp ⟨_, finished⟩
  exact ⟨config.planned, constructible.1, rfl, rfl⟩

end InvertibleNet
