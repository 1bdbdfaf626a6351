/-
# Independence of the samples of a batch

A network does to every sample of a batch what it does to that sample alone. Two
batches, one behind the other, are taken to what they are taken to each by itself,
one behind the other, to the last bit. Going back this holds of any two tensors that
agree on their other axes, and then they are refused together, too. Only an empty
batch has to be one that can exist: it holds no values, but room for its axes is
asked for.
-/

import InvertibleNet.Proofs.Coupling.Selection
import InvertibleNet.Proofs.Layer.Selection
import InvertibleNet.Proofs.Network.Domain

namespace InvertibleNet

universe u

open Outcome

namespace Branch

variable {α : Type u} [Zero α] [Add α] {branch : Branch α} {plan : Plan} {batch : Nat}
  {selection : Selection batch}

/-- Whether every residual map of the branch treats every sample alone. -/
def IsSamplewise (branch : Branch α) : Prop := ∀ block ∈ branch.blocks, block.IsSamplewise

theorem Follows.select_encode (follows : branch.Follows plan) (consistent : plan.Consistent)
    (samplewise : branch.IsSamplewise) (some : 0 < batch) {x : Tensor α}
    (samples : x.shape = plan.geometry.input.batched batch) :
    (branch.encode x).select selection = branch.encode (x.select selection) := by
  have entered := follows.shape_gather consistent samples
  have here : x.shape.batch = batch := congrArg Shape.batch samples
  have advanced : (advanceAll branch.blocks (branch.psi.gather x)).select selection =
      advanceAll branch.blocks ((branch.psi.gather x).select selection) :=
    select_advanceAll (follows.runs consistent some) samplewise rfl entered
  rw [encode, encode, advanced, Psi.select_gather here (follows.divides consistent samples)]

variable [Neg α]

theorem Follows.inverse_select (follows : branch.Follows plan) (consistent : plan.Consistent)
    (samplewise : branch.IsSamplewise) (some : 0 < batch) {y : Tensor α}
    (features : y.shape = plan.features.batched batch)
    (room : selection.count = 0 → y.shape.sampleSize < Count.signedLimit) :
    branch.inverse (y.select selection) = .ok ((branch.decode y).select selection) := by
  have runs := follows.runs consistent some
  have behind := features.trans (follows.output_eq consistent).symm
  have back : runInverse branch.blocks.reverse (y.select selection).cut =
      .ok ((retreatAll branch.blocks y).select selection).cut :=
    runInverse_select runs samplewise rfl behind room
  have entered := follows.shape_retreatAll consistent some features
  have full := consistent.full_features some
  have halves : (y.select selection).split = .ok (y.select selection).cut := by
    have channels : (y.select selection).shape.channels = plan.outChannels := by
      rw [Tensor.shape_select, features]
      rfl
    exact Tensor.split_eq_cut (channels ▸ Nat.ne_of_gt full.2.1) (channels ▸ consistent.even)
  have leaves : branch.psi.inverse ((retreatAll branch.blocks y).select selection) =
      .ok ((branch.decode y).select selection) := by
    refine Psi.inverse_select (entered ▸ consistent.full_entered some)
      (follows.block_pos consistent) ?_ (follows.area_dvd consistent some features)
      (congrArg Shape.batch entered) ?_
    · rw [follows.psi_eq]
      exact consistent.area_lt
    · intro none
      have room := room none
      rw [behind] at room
      rw [entered]
      exact Nat.lt_of_le_of_lt runs.passes.sampleSize_le room
  simp only [Branch.inverse, bind, Except.bind, halves, back, Tensor.merge_cut]
  exact leaves

/-- A branch undoes every selection from a tensor that has the channels of its
features and pixels. -/
theorem Follows.inverse_selections (follows : branch.Follows plan) (consistent : plan.Consistent)
    (samplewise : branch.IsSamplewise) {y : Tensor α} (channels : y.shape.channels = plan.outChannels)
    (pixels : y.shape.hasPixels = true) :
    ∃ restored : Tensor α, restored.shape.batch = y.shape.batch ∧
      ∀ selection : Selection y.shape.batch,
        (selection.count = 0 → y.shape.sampleSize < Count.signedLimit) →
          branch.inverse (y.select selection) = .ok (restored.select selection) := by
  -- The tensor may be an empty batch, so it is followed by a sample that is not asked for.
  let longer : Tensor α := y.stack (.constant { y.shape with batch := 1 } 0)
  have extents := Shape.hasPixels_iff.mp pixels
  have wide : 0 < y.shape.channels := channels ▸ (consistent.full_features Nat.one_pos).2.1
  have full : longer.shape.IsFull := ⟨Nat.succ_pos _, wide, extents⟩
  have front : longer.select (.first y.shape.batch 1) = y := Tensor.select_first_stack y _
  have moved := follows.resized y.shape.height y.shape.width
  have again := consistent.resized extents.1 extents.2
  refine ⟨(branch.decode longer).select (.first y.shape.batch 1), rfl, fun selection room => ?_⟩
  let joined := (Selection.first y.shape.batch 1).comp selection
  calc branch.inverse (y.select selection)
      = branch.inverse ((longer.select (.first y.shape.batch 1)).select selection) := by rw [front]
    _ = branch.inverse (longer.select joined) :=
        congrArg branch.inverse
          (Tensor.select_select longer (.first y.shape.batch 1) selection)
    _ = .ok ((branch.decode longer).select joined) :=
        moved.inverse_select again samplewise full.1 (Plan.features_resized channels) room
    _ = .ok (((branch.decode longer).select (.first y.shape.batch 1)).select selection) :=
        congrArg Except.ok
          (Tensor.select_select (branch.decode longer) (.first y.shape.batch 1) selection).symm

/-- What a branch can undo has the channels of its features, and pixels. -/
theorem Follows.channels_of_inverse (follows : branch.Follows plan) (consistent : plan.Consistent)
    {last : BlockSpec} (ends : plan.specs.getLast? = some last) {x y : Tensor α}
    (restores : branch.inverse y = .ok x) :
    y.shape.channels = plan.outChannels ∧ y.shape.hasPixels = true := by
  have sound : last.Sound :=
    (consistent.passes 1 Nat.one_pos).sound last (List.mem_of_getLast? ends)
  have width := consistent.outChannels_eq ends
  obtain ⟨pair, cuts, rest⟩ := bind_eq_ok_iff.mp restores
  obtain ⟨entered, runs, -⟩ := bind_eq_ok_iff.mp rest
  rw [← follows.specs, List.getLast?_map, Option.map_eq_some_iff] at ends
  obtain ⟨block, ends, rfl⟩ := ends
  have even : ¬ (y.shape.channels = 0 ∨ y.shape.channels % 2 ≠ 0) := by
    intro odd
    rw [Tensor.split, if_pos odd] at cuts
    cases cuts
  rw [Tensor.split_eq_cut (by omega) (by omega)] at cuts
  cases cuts
  cases steps : block.inverse y.cut with
  | error fault =>
      rw [(runInverse_refuses ends steps).1] at runs
      cases runs
  | ok next =>
      have half : y.cut.1.shape.channels = y.shape.channels / 2 := rfl
      obtain ⟨channels, pixels⟩ := Coupling.channels_of_inverse sound (by omega) steps
      exact ⟨by omega, pixels⟩

/-- Two tensors with the channels of the features and pixels are restored one behind
the other, as they were. -/
theorem Follows.restores_stack (follows : branch.Follows plan) (consistent : plan.Consistent)
    (samplewise : branch.IsSamplewise) {x y : Tensor α} (same : x.SameSample y)
    (channels : x.shape.channels = plan.outChannels) (pixels : x.shape.hasPixels = true)
    (x_exists : x.shape.batch = 0 → x.shape.isAddressable = true)
    (y_exists : y.shape.batch = 0 → y.shape.isAddressable = true) :
    ∃ a b, branch.inverse x = .ok a ∧ branch.inverse y = .ok b ∧
      branch.inverse (x.stack y) = .ok (a.stack b) := by
  have wide : 0 < x.shape.channels := channels ▸ (consistent.full_features Nat.one_pos).2.1
  have stack_channels : (x.stack y).shape.channels = plan.outChannels := channels
  have stack_samples : (x.stack y).shape.batch = x.shape.batch + y.shape.batch := rfl
  obtain ⟨restored, samples, restores⟩ : ∃ restored : Tensor α,
      restored.shape.batch = x.shape.batch + y.shape.batch ∧
        ∀ selection : Selection (x.shape.batch + y.shape.batch),
          (selection.count = 0 → x.shape.sampleSize < Count.signedLimit) →
            branch.inverse ((x.stack y).select selection) = .ok (restored.select selection) :=
    follows.inverse_selections consistent samplewise stack_channels pixels
  have x_room (vacant : x.shape.batch = 0) : x.shape.sampleSize < Count.signedLimit :=
    (Shape.isAddressable_vacant_iff vacant wide pixels).mp (x_exists vacant)
  have y_room (vacant : y.shape.batch = 0) : x.shape.sampleSize < Count.signedLimit := by
    rw [same.sampleSize]
    exact (Shape.isAddressable_vacant_iff vacant (same.1 ▸ wide) (same.hasPixels ▸ pixels)).mp
      (y_exists vacant)
  have first := restores (.first x.shape.batch y.shape.batch) x_room
  have second := restores (.last x.shape.batch y.shape.batch) y_room
  have both := restores (.whole (x.shape.batch + y.shape.batch)) fun vacant =>
    x_room (Nat.eq_zero_of_add_eq_zero_right vacant)
  rw [Tensor.select_first_stack] at first
  rw [Tensor.select_last_stack same] at second
  rw [Tensor.select_whole stack_samples, Tensor.select_whole samples] at both
  refine ⟨_, _, first, second, ?_⟩
  rw [Tensor.stack_select samples]
  exact both

/-- Going back, two tensors that agree on every axis but the batch are restored
together, one behind the other as they were, or are refused together. -/
theorem Follows.inverse_stack (follows : branch.Follows plan) (consistent : plan.Consistent)
    (samplewise : branch.IsSamplewise) {last : BlockSpec} (ends : plan.specs.getLast? = some last)
    {x y : Tensor α} (same : x.SameSample y)
    (x_exists : x.shape.batch = 0 → x.shape.isAddressable = true)
    (y_exists : y.shape.batch = 0 → y.shape.isAddressable = true) :
    (∃ a b, branch.inverse x = .ok a ∧ branch.inverse y = .ok b ∧
        branch.inverse (x.stack y) = .ok (a.stack b)) ∨
      ∃ first second both, branch.inverse x = .error first ∧
        branch.inverse y = .error second ∧ branch.inverse (x.stack y) = .error both := by
  by_cases works : x.shape.channels = plan.outChannels ∧ x.shape.hasPixels = true
  · exact .inl (follows.restores_stack consistent samplewise same works.1 works.2 x_exists y_exists)
  · have refuses (z : Tensor α) (alike : x.SameSample z) :
        ∃ fault, branch.inverse z = .error fault := by
      cases result : branch.inverse z with
      | error fault => exact ⟨fault, rfl⟩
      | ok restored =>
          obtain ⟨channels, pixels⟩ := follows.channels_of_inverse consistent ends result
          exact absurd ⟨alike.1.trans channels, alike.hasPixels.trans pixels⟩ works
    obtain ⟨first, x_refused⟩ := refuses x ⟨rfl, rfl, rfl⟩
    obtain ⟨second, y_refused⟩ := refuses y same
    obtain ⟨both, refused⟩ := refuses (x.stack y) ⟨rfl, rfl, rfl⟩
    exact .inr ⟨first, second, both, x_refused, y_refused, refused⟩

end Branch

namespace Network

variable {plan : Plan} {weights : Weights}

theorem samplewise_branch (plan : Plan) (weights : Weights) :
    (Network.mk plan weights).branch.IsSamplewise := by
  intro coupling member half selection
  obtain ⟨block, -, rfl⟩ := List.mem_map.mp member
  exact Bottleneck.select_apply rfl block.bottleneck block.spec.stride

/-- Forward, a network takes two batches of samples, one behind the other, to their
scores and features, one behind the other. -/
theorem forward_stack (consistent : plan.Consistent) (fits : weights.Fits plan)
    {x y : Tensor Single} (x_some : 0 < x.shape.batch) (y_some : 0 < y.shape.batch)
    (x_samples : x.shape = plan.geometry.input.batched x.shape.batch)
    (y_samples : y.shape = plan.geometry.input.batched y.shape.batch) :
    ∃ first second features others,
      (Network.mk plan weights).forward x = .ok (first, features) ∧
        (Network.mk plan weights).forward y = .ok (second, others) ∧
        (Network.mk plan weights).forward (x.stack y) =
          .ok (first.stack second, features.stack others) := by
  have follows := follows_branch fits
  have samplewise := samplewise_branch plan weights
  have some : 0 < x.shape.batch + y.shape.batch := Nat.lt_add_right _ x_some
  have same : x.SameSample y := by
    rw [Tensor.SameSample, x_samples, y_samples]
    exact ⟨rfl, rfl, rfl⟩
  have samples : (x.stack y).shape =
      plan.geometry.input.batched (x.shape.batch + y.shape.batch) := by
    rw [Tensor.shape_stack, x_samples]
    rfl
  let features := (Network.mk plan weights).branch.encode (x.stack y)
  have shape : features.shape = plan.features.batched (x.shape.batch + y.shape.batch) :=
    follows.shape_encode consistent some samples
  have batch : features.shape.batch = x.shape.batch + y.shape.batch := congrArg Shape.batch shape
  have wide : weights.linear.features = features.shape.channels := by
    rw [shape, fits.features]
    rfl
  have first : features.select (.first x.shape.batch y.shape.batch) =
      (Network.mk plan weights).branch.encode x := by
    rw [follows.select_encode consistent samplewise some samples, Tensor.select_first_stack]
  have last : features.select (.last x.shape.batch y.shape.batch) =
      (Network.mk plan weights).branch.encode y := by
    rw [follows.select_encode consistent samplewise some samples, Tensor.select_last_stack same]
  refine ⟨_, _, _, _, forward_encode consistent fits x_some x_samples,
    forward_encode consistent fits y_some y_samples, ?_⟩
  rw [forward_encode consistent fits some samples, ← first, ← last, Tensor.stack_select batch,
    ← Tensor.classify_parts batch wide]

end Network

namespace NetworkConfig

variable {config : NetworkConfig} {plan : Plan}

/-- A network treats two batches, one behind the other, as it treats each by itself.
Forward this is said of the scores and the features of any samples; going back, of
any two tensors that agree on every axis but the batch, which are restored together
or refused together. -/
theorem Builds.batch_independence (builds : config.Builds plan) {weights : Weights}
    (fits : weights.Fits plan) :
    (∀ x y : Tensor Single, 1 ≤ x.shape.batch → 1 ≤ y.shape.batch →
      x.shape = config.input.batched x.shape.batch →
        y.shape = config.input.batched y.shape.batch →
          ∃ first second features others,
            (Network.mk plan weights).forward x = .ok (first, features) ∧
              (Network.mk plan weights).forward y = .ok (second, others) ∧
              (Network.mk plan weights).forward (x.stack y) =
                .ok (first.stack second, features.stack others)) ∧
      ∀ x y : Tensor Single, x.SameSample y →
        (x.shape.batch = 0 → x.shape.isAddressable = true) →
          (y.shape.batch = 0 → y.shape.isAddressable = true) →
            (∃ a b, (Network.mk plan weights).branch.inverse x = .ok a ∧
                (Network.mk plan weights).branch.inverse y = .ok b ∧
                (Network.mk plan weights).branch.inverse (x.stack y) = .ok (a.stack b)) ∨
              ∃ first second both, (Network.mk plan weights).branch.inverse x = .error first ∧
                (Network.mk plan weights).branch.inverse y = .error second ∧
                (Network.mk plan weights).branch.inverse (x.stack y) = .error both := by
  have consistent := builds.consistent
  obtain ⟨last, ends, -⟩ := builds.features_eq
  rw [← builds.input_eq]
  refine ⟨?_, ?_⟩
  · intro x y x_some y_some x_samples y_samples
    exact Network.forward_stack consistent fits x_some y_some x_samples y_samples
  · intro x y same x_exists y_exists
    exact (Network.follows_branch fits).inverse_stack consistent
      (Network.samplewise_branch plan weights) ends same x_exists y_exists

theorem batch_independence_small :
    small.Builds small.planned ∧
      (∃ first second features others,
        smallNetwork.forward (smallInput .one) = .ok (first, features) ∧
          smallNetwork.forward (.constant ⟨2, 3, 2, 2⟩ .one) = .ok (second, others) ∧
          smallNetwork.forward ((smallInput .one).stack (.constant ⟨2, 3, 2, 2⟩ .one)) =
            .ok (first.stack second, features.stack others)) ∧
        ∃ a b, smallNetwork.branch.inverse (.constant ⟨2, 16, 3, 1⟩ .one) = .ok a ∧
          smallNetwork.branch.inverse (.constant ⟨0, 16, 3, 1⟩ .one) = .ok b ∧
          smallNetwork.branch.inverse
            (Tensor.stack (.constant ⟨2, 16, 3, 1⟩ .one) (.constant ⟨0, 16, 3, 1⟩ .one)) =
              .ok (a.stack b) := by
  have full : (Tensor.constant ⟨2, 16, 3, 1⟩ Single.one).shape.IsFull := by decide
  have follows := Network.follows_branch fits_smallNetwork
  have decodes := follows.inverse_decode builds_small.consistent full rfl
  obtain ⟨forth, back⟩ := builds_small.batch_independence fits_smallNetwork
  refine ⟨builds_small, forth _ _ (Nat.le_refl 1) (by decide) rfl rfl, ?_⟩
  have outcome := back (.constant ⟨2, 16, 3, 1⟩ .one) (.constant ⟨0, 16, 3, 1⟩ .one)
    ⟨rfl, rfl, rfl⟩ (by decide) (by decide)
  rcases outcome with restored | ⟨first, -, -, refused, -, -⟩
  · exact restored
  · exact absurd (decodes.symm.trans refused) (by simp)

end NetworkConfig

end InvertibleNet
