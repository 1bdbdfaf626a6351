/-
# Restarting a traced run

Every entry of a trace is enough to go on from. The blocks of a plan are chained, so the
channels that a block takes say where the entry in front of it has to be cut, and an entry that
the way back has left is cut in the middle. What comes after the entry is then the rest of the
trace, value for value, whatever the weights are and however many samples there are.
-/

import InvertibleNet.Proofs.Coupling.Restart
import InvertibleNet.Proofs.Network.Trace

namespace InvertibleNet

namespace Network

variable {plan : Plan} {weights : Weights}

theorem isShapedThroughout_blocks (fits : weights.Fits plan) :
    ∀ block ∈ (Network.mk plan weights).branch.blocks, block.IsShapedThroughout := by
  intro coupling member
  obtain ⟨block, inside, rfl⟩ := List.mem_map.mp member
  exact Block.isShapedThroughout_coupling ((fits_of_mem_zipWith fits.bottlenecks).2 block inside)

end Network

namespace NetworkConfig

open Outcome

variable {config : NetworkConfig} {plan : Plan} {weights : Weights}

theorem Builds.sound_blocks (builds : config.Builds plan) (fits : weights.Fits plan) :
    ∀ block ∈ (Network.mk plan weights).branch.blocks, block.spec.Sound := by
  obtain ⟨⟨plannable, -⟩, rfl⟩ := builds_iff.mp builds
  intro block member
  have listed : block.spec ∈ config.specs := by
    have specs : _ = config.specs := (Network.follows_branch fits).specs
    rw [← specs]
    exact List.mem_map_of_mem member
  exact plannable.schedulable.sound _ listed

theorem Builds.feeds_blocks (builds : config.Builds plan) (fits : weights.Fits plan) :
    (Network.mk plan weights).branch.blocks.IsChain Branch.Feeds := by
  obtain ⟨-, rfl⟩ := builds_iff.mp builds
  have specs : _ = config.specs := (Network.follows_branch fits).specs
  have chained : config.specs.IsChain _ := Schedule.isChain_chain _ _ _
  rw [← specs, List.isChain_map] at chained
  exact chained

/-- The first block takes the channels behind the entrance. -/
theorem Builds.first_block (builds : config.Builds plan) (fits : weights.Fits plan) :
    ∀ block ∈ (Network.mk plan weights).branch.blocks.head?,
      block.spec.inChannels = (Network.mk plan weights).branch.inChannels := by
  obtain ⟨⟨plannable, -⟩, rfl⟩ := builds_iff.mp builds
  have entrance := (Schedule.spellsOut_chain plannable.schedulable.listed
    config.enteringChannels).entrance
  have specs : _ = config.specs := (Network.follows_branch fits).specs
  intro block first
  have head : config.specs.head? = some block.spec := by
    rw [← specs, List.head?_map, Option.mem_def.mp first]
    rfl
  have enters : config.specs.head?.map (·.inChannels) = some config.enteringChannels := entrance
  rw [head] at enters
  exact Option.some_injective _ enters

/-- Every entry of a trace is a restart point. What a block received is cut at half the channels
that it takes, and the blocks from there on leave behind the rest of the trace. What a block was
undone to is cut in the middle, and undoing the blocks in front of it leaves behind the
entries before. -/
theorem Builds.traces_restart (builds : config.Builds plan) (fits : weights.Fits plan) :
    (∀ x entries, (Network.mk plan weights).branch.forwardTrace x = .ok entries →
      ∀ place block, (Network.mk plan weights).branch.blocks[place]? = some block →
        ∃ state pair, entries[place]? = some state ∧
          state.splitAt (block.spec.inChannels / 2) = .ok pair ∧
          Branch.walk (((Network.mk plan weights).branch.blocks.drop place).map (·.forward)) pair =
            .ok (entries.drop (place + 1))) ∧
      ∀ y entries, (Network.mk plan weights).branch.inverseTrace y = .ok entries →
        ∀ place, 1 ≤ place → place ≤ (Network.mk plan weights).branch.blocks.length →
          ∃ state pair behind, entries[place]? = some state ∧ state.split = .ok pair ∧
            Branch.walk (((Network.mk plan weights).branch.blocks.take place).reverse.map
              (·.inverse)) pair = .ok behind ∧
            behind.reverse = entries.take place := by
  have sound := builds.sound_blocks fits
  have shaped := Network.isShapedThroughout_blocks fits
  have feeds := builds.feeds_blocks fits
  refine ⟨?_, ?_⟩
  · intro x entries traced place block here
    obtain ⟨entered, -, rest⟩ := bind_eq_ok_iff.mp traced
    obtain ⟨pair, cuts, rest⟩ := bind_eq_ok_iff.mp rest
    obtain ⟨states, walks, made⟩ := bind_eq_ok_iff.mp rest
    cases made
    have starts : ∀ block ∈ (Network.mk plan weights).branch.blocks.head?,
        entered.splitAt (block.spec.inChannels / 2) = .ok pair := by
      intro first member
      rw [builds.first_block fits first member]
      exact cuts
    exact Branch.walk_forward_restarts sound shaped feeds starts walks here
  · intro y entries traced place some_block inside
    obtain ⟨pair, cuts, rest⟩ := bind_eq_ok_iff.mp traced
    obtain ⟨states, walks, made⟩ := bind_eq_ok_iff.mp rest
    cases made
    exact Branch.walk_inverse_restarts sound shaped feeds cuts walks some_block inside

/-- The run through the small network goes on from between its two blocks, where the entry has
four channels, and the way back from features of another height does as well. -/
theorem traces_restart_small :
    small.Builds small.planned ∧
      (∃ entries state pair,
        smallNetwork.branch.forwardTrace (smallInput .one) = .ok entries ∧
          entries[1]? = some state ∧ state.splitAt 2 = .ok pair ∧
          Branch.walk ((smallNetwork.branch.blocks.drop 1).map (·.forward)) pair =
            .ok (entries.drop 2)) ∧
        ∃ entries state pair behind,
          smallNetwork.branch.inverseTrace (Tensor.constant ⟨2, 16, 3, 1⟩ .one) = .ok entries ∧
            entries[1]? = some state ∧ state.split = .ok pair ∧
            Branch.walk ((smallNetwork.branch.blocks.take 1).reverse.map (·.inverse)) pair =
              .ok behind ∧
            behind.reverse = entries.take 1 := by
  have follows := Network.follows_branch fits_smallNetwork
  have features : (Tensor.constant ⟨2, 16, 3, 1⟩ Single.one).shape.IsFull := by decide
  have there := follows.forwardTrace_eq builds_small.consistent Nat.one_pos
    (show (smallInput Single.one).shape = _ from rfl)
  have back := follows.inverseTrace_eq builds_small.consistent features rfl
  obtain ⟨forth, home⟩ := builds_small.traces_restart fits_smallNetwork
  obtain ⟨state, pair, found, cut, goes_on⟩ := forth _ _ there 1 _ rfl
  obtain ⟨other, halves, behind, reached, split, goes_back⟩ :=
    home _ _ back 1 (Nat.le_refl 1) (by decide)
  exact ⟨builds_small, ⟨_, state, pair, there, found, cut, goes_on⟩, _, other, halves, behind, back,
    reached, split, goes_back⟩

end NetworkConfig

end InvertibleNet
